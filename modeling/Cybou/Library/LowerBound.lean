import Mathlib

/-! # Binary search for the first element that is not before a key, as `std::lower_bound` halves its range

On a list where the elements before the key come first, the search ends at the position
that divides them from the others.
-/

namespace Cybou.Library

/-- The loop of `std::lower_bound` on `length` positions from `first`; every turn halves the
    length, which bounds the turns. -/
def lowerBoundFrom (before : Nat → Bool) : Nat → Nat → Nat → Nat
  | 0, first, _ => first
  | turns + 1, first, length =>
    if length = 0 then first
    else if before (first + length / 2) = true then
      lowerBoundFrom before turns (first + length / 2 + 1) (length - length / 2 - 1)
    else lowerBoundFrom before turns first (length / 2)

/-- `std::lower_bound`: a position of the list, or its length. -/
def lowerBound {α : Type} (before : α → Bool) (l : List α) : Nat :=
  lowerBoundFrom (fun i => l[i]?.any before) l.length 0 l.length

theorem lowerBoundFrom_spec {before : Nat → Bool} {turns first length : Nat} (hturns : length ≤ turns)
    (hordered : ∀ i j, i ≤ j → j < first + length → before j = true → before i = true) :
    first ≤ lowerBoundFrom before turns first length ∧
    lowerBoundFrom before turns first length ≤ first + length ∧
    ∀ i, first ≤ i → i < first + length →
      (before i = true ↔ i < lowerBoundFrom before turns first length) := by
  induction turns generalizing first length with
  | zero =>
    rw [lowerBoundFrom]
    exact ⟨le_rfl, by omega, fun i hfirst hlast => by omega⟩
  | succ turns ih =>
    rw [lowerBoundFrom]
    by_cases hempty : length = 0
    · rw [if_pos hempty]
      exact ⟨le_rfl, by omega, fun i hfirst hlast => by omega⟩
    rw [if_neg hempty]
    have hhalf : length / 2 < length := Nat.div_lt_self (by omega) (by decide)
    by_cases hmiddle : before (first + length / 2) = true
    · rw [if_pos hmiddle]
      obtain ⟨hlower, hupper, hsplit⟩ := @ih (first + length / 2 + 1) (length - length / 2 - 1) (by omega)
        fun i j hij hj => hordered i j hij (by omega)
      refine ⟨by omega, by omega, fun i hfirst hlast => ?_⟩
      by_cases hi : i ≤ first + length / 2
      · exact iff_of_true (hordered i _ hi (by omega) hmiddle) (by omega)
      · exact hsplit i (by omega) (by omega)
    · rw [if_neg hmiddle]
      obtain ⟨hlower, hupper, hsplit⟩ := @ih first (length / 2) (by omega)
        fun i j hij hj => hordered i j hij (by omega)
      refine ⟨hlower, by omega, fun i hfirst hlast => ?_⟩
      by_cases hi : i < first + length / 2
      · exact hsplit i hfirst hi
      · exact iff_of_false (fun hbefore => hmiddle (hordered _ i (by omega) hlast hbefore)) (by omega)

section

variable {α : Type} {before : α → Bool} {l : List α}

/-- **What `std::lower_bound` finds**: it divides the elements before the key from the others. -/
theorem lowerBound_spec (hordered : l.Pairwise fun a b => before b = true → before a = true) :
    lowerBound before l ≤ l.length ∧
    ∀ (i : Nat) (hi : i < l.length), before l[i] = true ↔ i < lowerBound before l := by
  have hat : ∀ (i : Nat) (hi : i < l.length), l[i]?.any before = before l[i] := by
    intro i hi
    rw [List.getElem?_eq_getElem hi, Option.any_some]
  have hspec := @lowerBoundFrom_spec (fun i => l[i]?.any before) l.length 0 l.length le_rfl ?_
  · obtain ⟨-, hupper, hsplit⟩ := hspec
    rw [Nat.zero_add] at hupper hsplit
    refine ⟨hupper, fun i hi => ?_⟩
    rw [← hat i hi]
    exact hsplit i (Nat.zero_le i) hi
  · intro i j hij hj hbefore
    rw [Nat.zero_add] at hj
    rw [hat j hj] at hbefore
    rw [hat i (by omega)]
    rcases Nat.lt_or_eq_of_le hij with hlt | rfl
    · exact List.pairwise_iff_getElem.mp hordered i j (by omega) hj hlt hbefore
    · exact hbefore

theorem lowerBound_eq (hordered : l.Pairwise fun a b => before b = true → before a = true) {i : Nat}
    (hi : i < l.length) (hfirst : ∀ (j : Nat) (hj : j < i), before l[j] = true) (hlast : before l[i] = false) :
    lowerBound before l = i := by
  obtain ⟨hupper, hsplit⟩ := lowerBound_spec hordered
  have hnot : ¬i < lowerBound before l := by
    rw [← hsplit i hi, hlast]
    exact Bool.false_ne_true
  by_contra hne
  have hlt : lowerBound before l < i := by omega
  have hbefore := (hsplit _ (by omega)).mp (hfirst _ hlt)
  omega

end

/-! ### Ranges that do not overlap -/

section

variable {α K : Type} [LinearOrder K] {first last : α → K} {l : List α}

theorem pairwise_of_isChain (hvalid : ∀ r ∈ l, first r ≤ last r)
    (hchain : l.IsChain fun a b => last a < first b) : l.Pairwise fun a b => last a < first b := by
  induction l with
  | nil => exact List.Pairwise.nil
  | cons a l ih =>
    have hrest := ih (fun r hr => hvalid r (List.mem_cons_of_mem _ hr)) hchain.of_cons
    refine List.pairwise_cons.mpr ⟨fun c hc => ?_, hrest⟩
    cases l with
    | nil => cases hc
    | cons b l =>
      have hab := (List.isChain_cons_cons.mp hchain).1
      rcases List.mem_cons.mp hc with rfl | hc
      · exact hab
      · have hb := hvalid b (List.mem_cons_of_mem _ List.mem_cons_self)
        exact hab.trans (hb.trans_lt ((List.pairwise_cons.mp hrest).1 c hc))

/-- **The search by last elements** finds the range that contains a key, where there is one. -/
theorem lowerBound_range (hvalid : ∀ r ∈ l, first r ≤ last r)
    (hordered : l.Pairwise fun a b => last a < first b) (key : K) :
    (∃ r, l[lowerBound (fun r => decide (last r < key)) l]? = some r ∧ first r ≤ key ∧ key ≤ last r) ↔
      ∃ r ∈ l, first r ≤ key ∧ key ≤ last r := by
  have hbefore : l.Pairwise fun a b => decide (last b < key) = true → decide (last a < key) = true := by
    refine hordered.imp_of_mem fun ha hb hab hlast => ?_
    rw [decide_eq_true_eq] at hlast ⊢
    exact hab.trans ((hvalid _ hb).trans_lt hlast)
  obtain ⟨-, hsplit⟩ := lowerBound_spec hbefore
  constructor
  · rintro ⟨r, hat, hrange⟩
    exact ⟨r, List.mem_of_getElem? hat, hrange⟩
  · rintro ⟨r, hr, hfirst, hlast⟩
    obtain ⟨i, hi, rfl⟩ := List.mem_iff_getElem.mp hr
    have hle : lowerBound (fun r => decide (last r < key)) l ≤ i := by
      refine Nat.le_of_not_lt fun hlt => ?_
      have hover := (hsplit i hi).mpr hlt
      rw [decide_eq_true_eq] at hover
      exact absurd hlast (not_le.mpr hover)
    rcases Nat.lt_or_eq_of_le hle with hlt | heq
    · -- an earlier range would end before this one begins, and the key is not before its end
      have hover : decide (last l[lowerBound (fun r => decide (last r < key)) l] < key) = true := by
        rw [decide_eq_true_eq]
        exact (List.pairwise_iff_getElem.mp hordered _ i (by omega) hi hlt).trans_le hfirst
      have hself := (hsplit _ (by omega)).mp hover
      exact absurd hself (Nat.lt_irrefl _)
    · refine ⟨l[i], ?_, hfirst, hlast⟩
      rw [heq, List.getElem?_eq_getElem hi]

end

end Cybou.Library

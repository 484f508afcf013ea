import Mathlib

/-! # The last of several values in an order, kept as they arrive in any sequence

A slot keeps what is `IsLatest` of the values seen: an arriving value replaces the kept
one if it comes after it.  Where distinct values have distinct orders, what is kept
depends on the set of values only.
-/

namespace Cybou.Library

variable {V O : Type} [LinearOrder O]

/-- The kept value is one of the values seen, and none of them comes after it. -/
def IsLatest (order : V → O) (seen : List V) : Option V → Prop
  | none => seen = []
  | some kept => kept ∈ seen ∧ ∀ value ∈ seen, order value ≤ order kept

namespace IsLatest

variable {order : V → O} {seen seen' : List V} {kept kept' : Option V} {value : V}

theorem replace (h : IsLatest order seen kept) (hafter : ∀ old ∈ kept, order old < order value) :
    IsLatest order (seen ++ [value]) (some value) := by
  refine ⟨List.mem_append_right _ (List.mem_singleton_self value), fun other hother => ?_⟩
  rcases List.mem_append.mp hother with hold | hnew
  · cases kept with
    | none =>
      rw [IsLatest] at h
      rw [h] at hold
      cases hold
    | some old => exact (h.2 other hold).trans (hafter old rfl).le
  · rw [List.mem_singleton.mp hnew]

theorem keep {old : V} (h : IsLatest order seen (some old)) (hbefore : order value ≤ order old) :
    IsLatest order (seen ++ [value]) (some old) := by
  refine ⟨List.mem_append_left _ h.1, fun other hother => ?_⟩
  rcases List.mem_append.mp hother with hold | hnew
  · exact h.2 other hold
  · rw [List.mem_singleton.mp hnew]
    exact hbefore

end IsLatest

end Cybou.Library

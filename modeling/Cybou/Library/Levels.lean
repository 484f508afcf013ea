import Mathlib.Data.List.Perm.Basic
import Mathlib.Logic.Function.Basic
import Mathlib.Tactic.Common

/-! # Lists kept on levels, and the one list they make from the highest level down

A structure that is filled at the bottom and carries full lists upwards (an n-ary
counter, a bulk-loaded tree) holds its elements in this order: what is on a higher
level came before what is on a lower one.  `fromTop levels level n` reads `n` levels
from `level` on in that order.
-/

namespace Cybou.Library.Levels

variable {α : Type} {levels levels' : Nat → List α} {level k n : Nat}

def fromTop (levels : Nat → List α) : Nat → Nat → List α
  | _, 0 => []
  | level, n + 1 => fromTop levels (level + 1) n ++ levels level

theorem fromTop_congr (h : ∀ k, level ≤ k → levels k = levels' k) :
    fromTop levels level n = fromTop levels' level n := by
  induction n generalizing level with
  | zero => rfl
  | succ n ih =>
    rw [fromTop, fromTop, h level (Nat.le_refl level), ih fun k hk => h k (Nat.le_of_succ_le hk)]

theorem mem_fromTop {a : α} :
    a ∈ fromTop levels level n ↔ ∃ k, level ≤ k ∧ k < level + n ∧ a ∈ levels k := by
  induction n generalizing level with
  | zero =>
    constructor
    · intro h
      cases h
    · rintro ⟨k, hle, hlt, -⟩
      omega
  | succ n ih =>
    rw [fromTop, List.mem_append, ih]
    constructor
    · rintro (⟨k, hle, hlt, hmem⟩ | hmem)
      · exact ⟨k, by omega, by omega, hmem⟩
      · exact ⟨level, Nat.le_refl level, by omega, hmem⟩
    · rintro ⟨k, hle, hlt, hmem⟩
      by_cases hk : k = level
      · rw [hk] at hmem
        exact .inr hmem
      · exact .inl ⟨k, by omega, by omega, hmem⟩

theorem fromTop_eq_nil (h : ∀ k, level ≤ k → k < level + n → levels k = []) :
    fromTop levels level n = [] := by
  rw [List.eq_nil_iff_forall_not_mem]
  intro a ha
  rcases mem_fromTop.mp ha with ⟨k, hle, hlt, hmem⟩
  rw [h k hle hlt] at hmem
  cases hmem

theorem fromTop_skip {m : Nat} (h : ∀ k, level ≤ k → k < level + m → levels k = []) :
    fromTop levels level (m + n) = fromTop levels (level + m) n := by
  induction m generalizing level with
  | zero => rw [Nat.zero_add, Nat.add_zero]
  | succ m ih =>
    have hroom : m + 1 + n = m + n + 1 := by omega
    have hfirst := h level (Nat.le_refl level) (by omega)
    have hrest := @ih (level + 1) fun k hle hlt => h k (by omega) (by omega)
    rw [hroom, fromTop, hfirst, List.append_nil, hrest, Nat.add_right_comm, Nat.add_assoc]

theorem fromTop_update (v : List α) (hle : level ≤ k) (hlt : k < level + n) :
    (fromTop (Function.update levels k v) level n ++ levels k).Perm (fromTop levels level n ++ v) := by
  induction n generalizing level with
  | zero => omega
  | succ n ih =>
    rw [fromTop, fromTop]
    by_cases hk : k = level
    · subst hk
      have hsame : fromTop (Function.update levels k v) (k + 1) n = fromTop levels (k + 1) n := by
        apply fromTop_congr
        intro j hj
        rw [Function.update_of_ne (by omega)]
      rw [hsame, Function.update_self, List.append_assoc, List.append_assoc]
      exact List.perm_append_comm.append_left _
    · have hupper := @ih (level + 1) (by omega) (by omega)
      rw [Function.update_of_ne (Ne.symm hk), List.append_assoc, List.append_assoc]
      refine (List.perm_append_comm.append_left _).trans ?_
      rw [← List.append_assoc]
      refine (hupper.append_right _).trans ?_
      rw [List.append_assoc]
      exact List.perm_append_comm.append_left _

theorem length_le_fromTop {β : Type} (f : α → List β) (hle : level ≤ k) (hlt : k < level + n) :
    ((levels k).flatMap f).length ≤ ((fromTop levels level n).flatMap f).length := by
  have hperm : ((fromTop (Function.update levels k []) level n ++ levels k).flatMap f).Perm
      ((fromTop levels level n ++ []).flatMap f) := (fromTop_update [] hle hlt).flatMap_right f
  have hlength := hperm.length_eq
  rw [List.flatMap_append, List.flatMap_append, List.length_append, List.length_append,
    List.flatMap_nil, List.length_nil] at hlength
  omega

end Cybou.Library.Levels

import Mathlib

/-! # Numerals of a fixed width, most significant digit first

With digits that are ordered like their values, numerals of one width are ordered
like the numbers they stand for: this is what lets a store that is ordered by
bytes be read by number.
-/

namespace Cybou.Library

/-! ### Lexicographic order -/

section

variable {α : Type} [LinearOrder α]

theorem append_lt_append {l m : List α} (h : l < m) (hlen : l.length = m.length) (l' m' : List α) :
    l ++ l' < m ++ m' := by
  induction l generalizing m with
  | nil =>
    rw [List.eq_nil_of_length_eq_zero hlen.symm] at h
    exact absurd h (List.not_lt_nil [])
  | cons a l ih =>
    cases m with
    | nil => cases hlen
    | cons b m =>
      rw [List.cons_lt_cons_iff] at h
      rw [List.cons_append, List.cons_append, List.cons_lt_cons_iff]
      refine h.imp_right ?_
      rintro ⟨rfl, hrest⟩
      exact ⟨rfl, ih hrest (Nat.succ.inj hlen)⟩

theorem append_lt_append_left (l : List α) {m m' : List α} (h : m < m') : l ++ m < l ++ m' := by
  induction l with
  | nil => exact h
  | cons a l ih =>
    rw [List.cons_append, List.cons_append, List.cons_lt_cons_iff]
    exact .inr ⟨rfl, ih⟩

theorem exists_append_of_between {l m m' key : List α} (hlow : l ++ m ≤ key) (hhigh : key ≤ l ++ m') :
    ∃ rest, key = l ++ rest ∧ m ≤ rest ∧ rest ≤ m' := by
  induction l generalizing key with
  | nil => exact ⟨key, rfl, hlow, hhigh⟩
  | cons a l ih =>
    cases key with
    | nil => exact absurd (List.nil_lt_cons a (l ++ m)) (not_lt.mpr hlow)
    | cons b key =>
      rw [List.cons_append, ← not_lt, List.cons_lt_cons_iff] at hlow hhigh
      push Not at hlow hhigh
      obtain rfl : a = b := le_antisymm hlow.1 hhigh.1
      obtain ⟨rest, rfl, hm, hm'⟩ := ih (hlow.2 rfl) (hhigh.2 rfl)
      exact ⟨rest, rfl, hm, hm'⟩

end

/-! ### Numerals -/

variable {α : Type} (digit : Nat → α) (base : Nat)

def numeral : Nat → Nat → List α
  | 0, _ => []
  | width + 1, n => numeral width (n / base) ++ [digit (n % base)]

@[simp] theorem length_numeral (width n : Nat) : (numeral digit base width n).length = width := by
  induction width generalizing n with
  | zero => rfl
  | succ width ih => rw [numeral, List.length_append, ih, List.length_singleton]

/-- **Numerals are ordered like numbers.** -/
theorem numeral_lt_numeral [LinearOrder α]
    (hdigit : ∀ m n, m < n → n < base → digit m < digit n) (hbase : 0 < base) {width m n : Nat}
    (h : m < n) (hn : n < base ^ width) : numeral digit base width m < numeral digit base width n := by
  induction width generalizing m n with
  | zero =>
    rw [Nat.pow_zero] at hn
    omega
  | succ width ih =>
    rw [numeral, numeral]
    have hdiv : n / base < base ^ width := Nat.div_lt_of_lt_mul (by rwa [Nat.pow_succ, Nat.mul_comm] at hn)
    rcases Nat.lt_or_eq_of_le (Nat.div_le_div_right (c := base) (Nat.le_of_lt h)) with hlt | heq
    · exact append_lt_append (ih hlt hdiv) (by rw [length_numeral, length_numeral]) _ _
    · rw [heq]
      refine append_lt_append_left _ ?_
      have hmod : m % base < n % base := by
        have hm := Nat.div_add_mod m base
        have hn := Nat.div_add_mod n base
        rw [heq] at hm
        omega
      rw [List.cons_lt_cons_iff]
      exact .inl (hdigit _ _ hmod (Nat.mod_lt n hbase))

theorem foldlM_numeral {value : α → Option Nat} (hvalue : ∀ d < base, value (digit d) = some d)
    (hbase : 0 < base) {width n : Nat} (hn : n < base ^ width) :
    (numeral digit base width n).foldlM (fun acc c => (value c).map (base * acc + ·)) 0 = some n := by
  induction width generalizing n with
  | zero =>
    rw [Nat.pow_zero] at hn
    obtain rfl : n = 0 := by omega
    rfl
  | succ width ih =>
    have hdiv : n / base < base ^ width := Nat.div_lt_of_lt_mul (by rwa [Nat.pow_succ, Nat.mul_comm] at hn)
    rw [numeral, List.foldlM_append, ih hdiv]
    simp only [Option.bind_eq_bind, Option.bind_some, List.foldlM_cons, List.foldlM_nil,
      hvalue _ (Nat.mod_lt n hbase), Option.map_some, Nat.div_add_mod]
    rfl

end Cybou.Library

import Mathlib.Algebra.Group.Action.Defs
import Mathlib.Algebra.BigOperators.Group.Finset.Basic
import Mathlib.Order.Interval.Finset.Nat
import Mathlib.Algebra.BigOperators.Ring.Finset
import Mathlib.Algebra.Order.BigOperators.Group.Finset
import Mathlib.Tactic.Common

/-! # Schedules whose entries take over from one another

Each entry is in effect from its start until the next one starts; entries may start
together, and then the later one counts.  What a schedule is worth until a time is
the sum of what the entry in effect is worth, time by time (`worthUntil`).  An
entry adds its worth for as long as it is in effect (`worthUntil_cons`), which is how
a program adds it up; monotonicity and the rest are read off the sum.
-/

namespace Cybou.Library

open Finset

variable {ε : Type} (start : ε → Nat)

def inEffect : List ε → Nat → Option ε
  | [], _ => none
  | entry :: rest, time => (inEffect rest time).or (if start entry ≤ time then some entry else none)

/-- Where the entry in front of `rest` ends. -/
def segmentEnd (end_ : Nat) : List ε → Nat
  | [] => end_
  | next :: _ => min end_ (start next)

def worthAt (worth : ε → Nat) (entries : List ε) (time : Nat) : Nat :=
  ((inEffect start entries time).map worth).getD 0

def worthUntil (worth : ε → Nat) (entries : List ε) (end_ : Nat) : Nat :=
  ∑ time ∈ range end_, worthAt start worth entries time

variable {start} {worth : ε → Nat} {entries rest : List ε} {entry : ε} {time end_ : Nat}

theorem inEffect_eq_none : inEffect start entries time = none ↔ ∀ e ∈ entries, time < start e := by
  induction entries with
  | nil => simp [inEffect]
  | cons e rest ih =>
    rw [inEffect, Option.or_eq_none_iff, ih, List.forall_mem_cons, and_comm]
    refine and_congr_left fun _ => ?_
    split
    · next h => simpa using h
    · next h => simpa using h

theorem inEffect_mem (h : inEffect start entries time = some entry) :
    entry ∈ entries ∧ start entry ≤ time := by
  induction entries with
  | nil => cases h
  | cons e rest ih =>
    rw [inEffect, Option.or_eq_some_iff] at h
    rcases h with h | ⟨-, h⟩
    · exact ⟨List.mem_cons_of_mem _ (ih h).1, (ih h).2⟩
    · split at h
      · next hstarted =>
        obtain rfl := Option.some.inj h
        exact ⟨List.mem_cons_self, hstarted⟩
      · cases h

theorem inEffect_append_of_lt (h : time < start entry) :
    inEffect start (entries ++ [entry]) time = inEffect start entries time := by
  induction entries with
  | nil => simp [inEffect, h]
  | cons e rest ih => rw [List.cons_append, inEffect, ih, inEffect]

theorem worthAt_cons : worthAt start worth (entry :: rest) time = worthAt start worth rest time +
    if start entry ≤ time ∧ ∀ e ∈ rest, time < start e then worth entry else 0 := by
  rw [worthAt, worthAt, inEffect]
  cases hin : inEffect start rest time with
  | none =>
    rw [inEffect_eq_none] at hin
    by_cases hstarted : start entry ≤ time
    · rw [if_pos hstarted, if_pos ⟨hstarted, hin⟩]
      simp
    · rw [if_neg hstarted, if_neg fun h => hstarted h.1]
      rfl
  | some e =>
    obtain ⟨hmem, hstarted⟩ := inEffect_mem hin
    have hover : ¬(start entry ≤ time ∧ ∀ e ∈ rest, time < start e) :=
      fun h => Nat.not_lt.mpr hstarted (h.2 e hmem)
    rw [if_neg hover]
    rfl

theorem worthAt_le {bound : Nat} (h : ∀ e ∈ entries, worth e ≤ bound) :
    worthAt start worth entries time ≤ bound := by
  rw [worthAt]
  cases hin : inEffect start entries time with
  | none => exact Nat.zero_le bound
  | some e => exact h e (inEffect_mem hin).1

theorem worthAt_of_const {value : Nat} (h : ∀ e ∈ entries, worth e = value) :
    worthAt start worth entries time = if ∃ e ∈ entries, start e ≤ time then value else 0 := by
  rw [worthAt]
  cases hin : inEffect start entries time with
  | none =>
    rw [inEffect_eq_none] at hin
    rw [if_neg]
    · rfl
    · rintro ⟨e, he, hle⟩
      exact absurd (hin e he) (Nat.not_lt.mpr hle)
  | some e =>
    obtain ⟨hmem, hstarted⟩ := inEffect_mem hin
    rw [if_pos ⟨e, hmem, hstarted⟩]
    exact h e hmem

theorem worthUntil_nil : worthUntil start worth [] end_ = 0 :=
  sum_eq_zero fun _ _ => rfl

/-- **The first entry adds its worth for as long as it is in effect.** -/
theorem worthUntil_cons (hrest : rest.Pairwise fun a b => start a ≤ start b) :
    worthUntil start worth (entry :: rest) end_ =
      (segmentEnd start end_ rest - start entry) * worth entry + worthUntil start worth rest end_ := by
  have htimes : (range end_).filter (fun time => start entry ≤ time ∧ ∀ e ∈ rest, time < start e) =
      Ico (start entry) (segmentEnd start end_ rest) := by
    ext time
    rw [mem_filter, mem_range, mem_Ico]
    cases rest with
    | nil =>
      simp only [List.not_mem_nil, false_implies, implies_true, and_true, segmentEnd]
      exact and_comm
    | cons next rest =>
      have hnext : (∀ e ∈ next :: rest, time < start e) ↔ time < start next := by
        refine ⟨fun h => h next List.mem_cons_self, fun h => ?_⟩
        rw [List.pairwise_cons] at hrest
        exact List.forall_mem_cons.mpr ⟨h, fun e he => Nat.lt_of_lt_of_le h (hrest.1 e he)⟩
      rw [hnext, segmentEnd, lt_min_iff]
      exact and_left_comm
  simp only [worthUntil, worthAt_cons]
  rw [sum_add_distrib, ← sum_filter, htimes, sum_const, Nat.card_Ico, smul_eq_mul, Nat.add_comm]

theorem worthUntil_mono {end' : Nat} (h : end_ ≤ end') :
    worthUntil start worth entries end_ ≤ worthUntil start worth entries end' :=
  sum_le_sum_of_subset (range_subset_range.mpr h)

theorem worthUntil_append (h : end_ ≤ start entry) :
    worthUntil start worth (entries ++ [entry]) end_ = worthUntil start worth entries end_ := by
  refine sum_congr rfl ?_
  intro time htime
  rw [worthAt, worthAt, inEffect_append_of_lt (Nat.lt_of_lt_of_le (mem_range.mp htime) h)]

theorem worthUntil_le {first bound : Nat} (hstart : ∀ e ∈ entries, first ≤ start e)
    (hworth : ∀ e ∈ entries, worth e ≤ bound) :
    worthUntil start worth entries end_ ≤ (end_ - first) * bound := by
  have hnone : ∀ time ∈ range end_, time ∉ Ico first end_ → worthAt start worth entries time = 0 := by
    intro time htime hbefore
    rw [mem_Ico, not_and_or] at hbefore
    rw [mem_range] at htime
    have hin : inEffect start entries time = none := by
      rw [inEffect_eq_none]
      intro e he
      have hfirst := hstart e he
      omega
    rw [worthAt, hin]
    rfl
  have hsubset : Ico first end_ ⊆ range end_ := fun time htime => mem_range.mpr (mem_Ico.mp htime).2
  rw [worthUntil, ← sum_subset hsubset hnone, ← Nat.card_Ico, ← smul_eq_mul]
  exact sum_le_card_nsmul _ _ _ fun _ _ => worthAt_le hworth

theorem worthUntil_of_const {value : Nat} (h : ∀ e ∈ entries, worth e = value) :
    worthUntil start worth entries end_ =
      value * ((range end_).filter fun time => ∃ e ∈ entries, start e ≤ time).card := by
  simp only [worthUntil, worthAt_of_const h]
  rw [← sum_filter, sum_const, smul_eq_mul, Nat.mul_comm]

theorem sum_worthAt {κ : Type} (keys : Finset κ) (worth : κ → ε → Nat) :
    ∑ key ∈ keys, worthAt start (worth key) entries time =
      worthAt start (fun e => ∑ key ∈ keys, worth key e) entries time := by
  simp only [worthAt]
  cases inEffect start entries time with
  | none => exact sum_eq_zero fun _ _ => rfl
  | some e => rfl

theorem sum_worthUntil {κ : Type} (keys : Finset κ) (worth : κ → ε → Nat) :
    ∑ key ∈ keys, worthUntil start (worth key) entries end_ =
      worthUntil start (fun e => ∑ key ∈ keys, worth key e) entries end_ := by
  simp only [worthUntil]
  rw [sum_comm]
  exact sum_congr rfl fun time _ => sum_worthAt keys worth

end Cybou.Library

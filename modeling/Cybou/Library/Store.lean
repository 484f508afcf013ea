import Mathlib.Logic.Function.Basic
import Mathlib.Tactic.Common

/-! # A key-value store with atomic batches that may fail

A batch is a list of edits that become durable together or not at all.  The
writer may be told that the batch failed in either case, so a write has three
outcomes (`Fate`): done, lost, and stored although it was reported as failed.
-/

namespace Cybou.Library

abbrev Store (K V : Type) := K → Option V

inductive Edit (K V : Type) where
  | put (key : K) (value : V)
  | erase (key : K)

inductive Fate where
  /-- Durable, and the writer returns. -/
  | done
  /-- Not durable, and the writer throws. -/
  | lost
  /-- Durable, and the writer throws. -/
  | stored
deriving DecidableEq, Repr

def Edit.key {K V : Type} : Edit K V → K
  | .put key _ => key
  | .erase key => key

def Edit.value {K V : Type} : Edit K V → Option V
  | .put _ value => some value
  | .erase _ => none

namespace Store

variable {K V : Type} [DecidableEq K]

def apply (s : Store K V) (batch : List (Edit K V)) : Store K V :=
  batch.foldl (fun s e => Function.update s e.key e.value) s

def write (s : Store K V) (batch : List (Edit K V)) : Fate → Store K V
  | .done | .stored => s.apply batch
  | .lost => s

@[simp] theorem apply_nil (s : Store K V) : s.apply [] = s := rfl

@[simp] theorem apply_cons (s : Store K V) (e : Edit K V) (batch : List (Edit K V)) :
    s.apply (e :: batch) = Store.apply (Function.update s e.key e.value) batch := rfl

theorem apply_append (s : Store K V) (batch batch' : List (Edit K V)) :
    s.apply (batch ++ batch') = (s.apply batch).apply batch' := List.foldl_append

theorem apply_of_forall_ne {s : Store K V} {batch : List (Edit K V)} {key : K}
    (h : ∀ e ∈ batch, e.key ≠ key) : s.apply batch key = s key := by
  induction batch generalizing s with
  | nil => rfl
  | cons e batch ih =>
    rw [List.forall_mem_cons] at h
    rw [apply_cons, ih h.2, Function.update_of_ne (Ne.symm h.1)]

theorem apply_congr {s s' : Store K V} {key : K} (h : s key = s' key) (batch : List (Edit K V)) :
    s.apply batch key = s'.apply batch key := by
  induction batch generalizing s s' with
  | nil => exact h
  | cons e batch ih =>
    rw [apply_cons, apply_cons]
    refine ih ?_
    by_cases hkey : key = e.key
    · rw [hkey, Function.update_self, Function.update_self]
    · rw [Function.update_of_ne hkey, Function.update_of_ne hkey, h]

theorem apply_of_mem {s : Store K V} {batch : List (Edit K V)} {key : K}
    (herase : ∀ e ∈ batch, e.value = none) (h : key ∈ batch.map Edit.key) : s.apply batch key = none := by
  induction batch generalizing s with
  | nil => cases h
  | cons e batch ih =>
    rw [List.forall_mem_cons] at herase
    rw [apply_cons]
    by_cases hrest : key ∈ batch.map Edit.key
    · exact ih herase.2 hrest
    · rw [List.map_cons, List.mem_cons] at h
      rcases h with h | h
      · rw [apply_of_forall_ne, h, Function.update_self, herase.1]
        intro e' he' heq
        exact hrest (heq ▸ List.mem_map_of_mem he')
      · exact absurd h hrest

/-- Of edits of different keys, each decides its own. -/
theorem apply_of_nodup {s : Store K V} {batch : List (Edit K V)} {e : Edit K V}
    (hnodup : (batch.map Edit.key).Nodup) (h : e ∈ batch) : s.apply batch e.key = e.value := by
  induction batch generalizing s with
  | nil => cases h
  | cons first batch ih =>
    rw [List.map_cons, List.nodup_cons] at hnodup
    rw [apply_cons]
    rcases List.mem_cons.mp h with rfl | hrest
    · rw [apply_of_forall_ne, Function.update_self]
      intro other hother heq
      exact hnodup.1 (heq ▸ List.mem_map_of_mem hother)
    · exact ih hnodup.2 hrest

theorem apply_map {ι : Type} [BEq ι] [LawfulBEq ι] {f : ι → K} {v : Option V} (edit : ι → Edit K V)
    (hf : Function.Injective f) (hkey : ∀ i, (edit i).key = f i) (hvalue : ∀ i, (edit i).value = v)
    (s : Store K V) (l : List ι) (i : ι) :
    s.apply (l.map edit) (f i) = if i ∈ l then v else s (f i) := by
  induction l generalizing s with
  | nil => rfl
  | cons j l ih =>
    rw [List.map_cons, apply_cons, ih, hkey, hvalue, Function.update_apply]
    by_cases hij : i = j
    · simp [hij]
    · have hne : f i ≠ f j := hf.ne hij
      simp [hij, hne]

end Store

end Cybou.Library

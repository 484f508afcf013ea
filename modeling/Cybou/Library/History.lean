import Mathlib.Tactic.Common

/-! # Histories of events, the newest first

`Always P h` says that every event of `h` stood in relation `P` to the events
before it at the moment it happened.  A run that only appends events keeps it
one event at a time.
-/

namespace Cybou.Library

namespace History

variable {ε : Type} {P Q : ε → List ε → Prop} {e : ε} {h later earlier : List ε}

def Always (P : ε → List ε → Prop) : List ε → Prop
  | [] => True
  | e :: earlier => P e earlier ∧ Always P earlier

@[simp] theorem always_nil : Always P [] := trivial

@[simp] theorem always_cons : Always P (e :: earlier) ↔ P e earlier ∧ Always P earlier := Iff.rfl

theorem Always.of_append (h' : Always P (later ++ earlier)) : Always P earlier := by
  induction later with
  | nil => exact h'
  | cons e later ih => exact ih h'.2

theorem always_iff : Always P h ↔ ∀ later e earlier, h = later ++ e :: earlier → P e earlier := by
  constructor
  · intro h' later e earlier heq
    rw [heq] at h'
    exact h'.of_append.1
  · intro hall
    induction h with
    | nil => trivial
    | cons e earlier ih =>
      refine ⟨hall [] e earlier rfl, ih ?_⟩
      intro later e' earlier' heq
      exact hall (e :: later) e' earlier' (by rw [heq, List.cons_append])

end History

end Cybou.Library

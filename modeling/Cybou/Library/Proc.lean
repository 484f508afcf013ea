import Mathlib.Tactic.Common

/-! # State-changing calls that return or throw, and rules of pre- and postconditions for them

A call runs on a state and either returns a value or throws, and in both cases
leaves a state behind.  `wp x Q E s` says what is needed of `s` for a return to
end in `Q` and a throw to end in `E`.  The rules below take a call apart one
statement at a time; `wp_refuse` is the one for a guard that returns early.
-/

namespace Cybou.Library

/-- A call on a state of type `σ` that may throw an `ε`. -/
abbrev Proc (ε σ α : Type) := EStateM ε σ α

namespace Proc

variable {ε σ α β : Type} {Q Q' : α → σ → Prop} {E E' : ε → σ → Prop} {s : σ}

/-- The call started in `s` returns in `Q` or throws in `E`. -/
def wp (x : Proc ε σ α) (Q : α → σ → Prop) (E : ε → σ → Prop) (s : σ) : Prop :=
  match x s with
  | .ok a s' => Q a s'
  | .error e s' => E e s'

theorem wp_of_ok {x : Proc ε σ α} {a : α} {s' : σ} (h : wp x Q E s) (hx : x s = .ok a s') :
    Q a s' := by
  rw [wp, hx] at h
  exact h

theorem wp_of_error {x : Proc ε σ α} {e : ε} {s' : σ} (h : wp x Q E s) (hx : x s = .error e s') :
    E e s' := by
  rw [wp, hx] at h
  exact h

theorem wp_mono {x : Proc ε σ α} (h : wp x Q E s) (hQ : ∀ a s', Q a s' → Q' a s')
    (hE : ∀ e s', E e s' → E' e s') : wp x Q' E' s := by
  unfold wp at h ⊢
  split at h
  · exact hQ _ _ h
  · exact hE _ _ h

theorem wp_true {x : Proc ε σ α} : wp x (fun _ _ => True) (fun _ _ => True) s := by
  unfold wp
  split <;> trivial

@[simp] theorem wp_pure {a : α} : wp (pure a : Proc ε σ α) Q E s ↔ Q a s := Iff.rfl

@[simp] theorem wp_throw {e : ε} : wp (throw e : Proc ε σ α) Q E s ↔ E e s := Iff.rfl

theorem wp_bind {x : Proc ε σ α} {f : α → Proc ε σ β} {Q : β → σ → Prop} :
    wp (x >>= f) Q E s ↔ wp x (fun a => wp (f a) Q E) E s := by
  simp only [wp, bind, EStateM.bind]
  cases x s with
  | ok a s' => rfl
  | error e s' => rfl

theorem wp_get_bind {f : σ → Proc ε σ β} {Q : β → σ → Prop} :
    wp (get >>= f) Q E s ↔ wp (f s) Q E s := Iff.rfl

theorem wp_set_bind {s' : σ} {f : PUnit → Proc ε σ β} {Q : β → σ → Prop} :
    wp (set s' >>= f) Q E s ↔ wp (f ⟨⟩) Q E s' := Iff.rfl

@[simp] theorem wp_set {s' : σ} {Q : PUnit → σ → Prop} :
    wp (set s' : Proc ε σ PUnit) Q E s ↔ Q ⟨⟩ s' := Iff.rfl

@[simp] theorem wp_modify {g : σ → σ} {Q : PUnit → σ → Prop} :
    wp (modify g : Proc ε σ PUnit) Q E s ↔ Q ⟨⟩ (g s) := Iff.rfl

theorem wp_refuse {c : Prop} [Decidable c] {a : α} {x : Proc ε σ α} (hQ : c → Q a s)
    (hx : ¬c → wp x Q E s) : wp (if c then pure a else x) Q E s := by
  split
  · next h => exact hQ h
  · next h => exact hx h

theorem exists_ok_iff_wp {x : Proc ε σ α} {a : α} :
    (∃ s', x s = .ok a s') ↔ wp x (fun r _ => r = a) (fun _ _ => False) s := by
  unfold wp
  cases x s with
  | ok r s' => simp
  | error e s' => simp

theorem ok_iff_wp {x : Proc ε σ α} {a : α} {s' : σ} :
    x s = .ok a s' ↔ wp x (fun r t => r = a ∧ t = s') (fun _ _ => False) s := by
  unfold wp
  cases x s with
  | ok r t => simp
  | error e t => simp

/-! ### Atomic calls -/

/-- The postcondition of an atomic call: it was refused and nothing has changed,
    or it returned `ok` and `Done` holds. -/
def Atomic (ok : α) (s : σ) (Done : σ → Prop) (a : α) (s' : σ) : Prop :=
  (a ≠ ok ∧ s' = s) ∨ (a = ok ∧ Done s')

variable {ok a : α} {Done : σ → Prop} {s' : σ}

theorem Atomic.refused (h : a ≠ ok) : Atomic ok s Done a s := .inl ⟨h, rfl⟩

theorem Atomic.completed (h : Done s') : Atomic ok s Done ok s' := .inr ⟨rfl, h⟩

theorem wp_guard {c : Prop} [Decidable c] {x : Proc ε σ α} (ha : a ≠ ok)
    (hx : ¬c → wp x (Atomic ok s Done) E s) :
    wp (if c then pure a else x) (Atomic ok s Done) E s :=
  wp_refuse (fun _ => Atomic.refused ha) hx

theorem Atomic.unchanged (h : Atomic ok s Done a s') (ha : a ≠ ok) : s' = s :=
  h.elim And.right fun h => absurd h.1 ha

theorem Atomic.done (h : Atomic ok s Done ok s') : Done s' :=
  h.elim (fun h => absurd rfl h.1) And.right

end Proc

end Cybou.Library

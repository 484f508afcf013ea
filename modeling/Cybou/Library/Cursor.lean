import Cybou.Library.Checked

/-! # Fields behind a position that moves on

A reader of fixed-width fields keeps a position; a field that does not fit leaves the
position where it is and yields no value, and the fields behind it are read all the
same.  `CursorField.Exact` says that a value is read exactly where its encoding stands.
-/

namespace Cybou.Library

/-- A field of the input at a position, and the position behind it. -/
abbrev CursorField (α : Type) := Bytes → Nat → Checked (Option α × Nat)

namespace CursorField

open Checked

variable {α β : Type}

def sized (n : Nat) (read : Bytes → Nat → Checked α) : CursorField α := fun b pos =>
  if pos + n > b.length then .ok (none, pos)
  else do
    let a ← read b pos
    return (some a, pos + n)

def u8 : CursorField UInt8 := sized 1 byteAt

def u32 : CursorField UInt32 := sized 4 u32At

def u64 : CursorField UInt64 := sized 8 u64At

def fixed (n : Nat) : CursorField (FixedBytes n) := sized n (fixedAt n)

/-- Two fields; the second is read also where the first is missing. -/
def and (x : CursorField α) (y : CursorField β) : CursorField (α × β) := fun b pos => do
  let (a, pos) ← x b pos
  let (c, pos) ← y b pos
  return (a.bind fun a => c.map fun c => (a, c), pos)

def need (x : CursorField α) (b : Bytes) (pos : Nat) : Checked (α × Nat) := do
  match ← x b pos with
  | (some a, last) => return (a, last)
  | (none, _) => refuse

/-- The field reads the encoding `enc`, never past the end. -/
structure Exact (x : CursorField α) (enc : α → Bytes) : Prop where
  safe : ∀ b pos, Safe (x b pos)
  ok : ∀ b pos a last, x b pos = .ok (some a, last) ↔ enc a <+: b.drop pos ∧ last = pos + (enc a).length

section

variable {x : CursorField α} {y : CursorField β} {enc : α → Bytes} {enc' : β → Bytes} {b : Bytes} {pos last : Nat} {a : α}

theorem sized_exact {n : Nat} {read : Bytes → Nat → Checked α} (hsize : ∀ a, (enc a).length = n) (hn : 0 < n)
    (hsafe : ∀ b pos, pos + n ≤ b.length → Safe (read b pos))
    (hread : ∀ b pos a, read b pos = .ok a ↔ enc a <+: b.drop pos) : (sized n read).Exact enc where
  safe b pos := by
    unfold sized
    refine Safe.ite (fun _ => Safe.ok _) fun hfits => ?_
    exact (hsafe b pos (Nat.le_of_not_lt hfits)).bind fun _ _ => Safe.pure _
  ok b pos a last := by
    unfold sized
    rw [hsize]
    split
    · next hover =>
      refine iff_of_false nofun fun hand => ?_
      have hlength := hand.1.length_le
      rw [hsize, List.length_drop] at hlength
      omega
    · simp only [bind_ok, hread, pure_ok, Prod.mk.injEq, Option.some.injEq]
      constructor
      · rintro ⟨_, hstart, rfl, rfl⟩
        exact ⟨hstart, rfl⟩
      · rintro ⟨hstart, rfl⟩
        exact ⟨a, hstart, rfl, rfl⟩

theorem u8_exact : u8.Exact fun v => [v] :=
  sized_exact (fun _ => rfl) (by decide) (fun _ _ h => Safe.byteAt h) fun _ _ _ => byteAt_ok

theorem u32_exact : u32.Exact le32 :=
  sized_exact length_le32 (by decide) (fun _ _ h => Safe.u32At h) fun _ _ _ => u32At_ok

theorem u64_exact : u64.Exact le64 :=
  sized_exact length_le64 (by decide) (fun _ _ h => Safe.u64At h) fun _ _ _ => u64At_ok

theorem fixed_exact {n : Nat} (hn : 0 < n) : (fixed n).Exact Subtype.val :=
  sized_exact (fun a => a.2) hn (fun _ _ h => Safe.fixedAt h) fun _ _ _ => fixedAt_ok hn

theorem Exact.and (hx : x.Exact enc) (hy : y.Exact enc') : (x.and y).Exact fun a => enc a.1 ++ enc' a.2 where
  safe b pos := (hx.safe b pos).bind fun _ _ => (hy.safe b _).bind fun _ _ => Safe.pure _
  ok b pos a last := by
    obtain ⟨a, c⟩ := a
    unfold CursorField.and
    simp only [bind_ok, pure_ok, Prod.exists, Prod.mk.injEq, Option.bind_eq_some_iff, Option.map_eq_some_iff,
      append_prefix_drop, List.length_append]
    constructor
    · rintro ⟨_, middle, hfirst, _, last', hsecond, ⟨a', rfl, c', rfl, rfl, rfl⟩, rfl⟩
      obtain ⟨hstart, rfl⟩ := (hx.ok b pos _ _).mp hfirst
      obtain ⟨hstart', rfl⟩ := (hy.ok b _ _ _).mp hsecond
      exact ⟨⟨hstart, hstart'⟩, Nat.add_assoc _ _ _⟩
    · rintro ⟨⟨hstart, hstart'⟩, rfl⟩
      exact ⟨some a, _, (hx.ok b pos _ _).mpr ⟨hstart, rfl⟩, some c, _, (hy.ok b _ _ _).mpr ⟨hstart', rfl⟩,
        ⟨a, rfl, c, rfl, rfl, rfl⟩, Nat.add_assoc _ _ _⟩

theorem Exact.need_ok (hx : x.Exact enc) :
    need x b pos = .ok (a, last) ↔ enc a <+: b.drop pos ∧ last = pos + (enc a).length := by
  rw [← hx.ok, need, bind_ok]
  constructor
  · rintro ⟨⟨value, last'⟩, hread, hvalue⟩
    cases value with
    | none => cases hvalue
    | some value =>
      rw [pure_ok] at hvalue
      cases hvalue
      exact hread
  · exact fun hread => ⟨_, hread, rfl⟩

theorem Exact.safe_need (hx : x.Exact enc) (b : Bytes) (pos : Nat) : Safe (need x b pos) := by
  refine (hx.safe b pos).bind fun value _ => ?_
  rcases value with ⟨_ | _, _⟩
  · exact Safe.refuse
  · exact Safe.pure _

theorem Exact.unique (hx : x.Exact enc) {a' : α} (h : enc a <+: b.drop pos) (h' : enc a' <+: b.drop pos) : a = a' := by
  have hread := (hx.ok b pos a _).mpr ⟨h, rfl⟩
  rw [(hx.ok b pos a' _).mpr ⟨h', rfl⟩] at hread
  cases hread
  rfl

end

end CursorField

end Cybou.Library

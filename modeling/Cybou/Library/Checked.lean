import Cybou.Library.Codec

/-! # Reads at explicit offsets, with their faults

A parser that indexes its input can go wrong in two ways that a parser over a
suffix cannot: it can read past the end, and a subtraction of sizes can go
below zero.  Both are values here, next to the refusal the parser intends, so
that their absence (`Safe`) is a theorem.  What a read returns is stated with
prefixes of `input.drop offset`, which chain.
-/

namespace Cybou.Library

/-- Why a parse ends without a value. -/
inductive ReadFault where
  | refused
  | overrun
  | underflow
deriving DecidableEq, Repr

abbrev Checked := Except ReadFault

namespace Checked

variable {α β : Type}

def refuse : Checked α := .error .refused

def sizeSub (a b : Nat) : Checked Nat := if b ≤ a then .ok (a - b) else .error .underflow

def fixedAt (n : Nat) (b : Bytes) (offset : Nat) : Checked (FixedBytes n) :=
  if h : offset + n ≤ b.length then .ok ⟨(b.drop offset).take n, by simp; omega⟩
  else .error .overrun

def bytesAt (n : Nat) (b : Bytes) (offset : Nat) : Checked Bytes := do
  let x ← fixedAt n b offset
  return x.1

def byteAt (b : Bytes) (offset : Nat) : Checked UInt8 :=
  match b[offset]? with
  | some x => .ok x
  | none => .error .overrun

def u32At (b : Bytes) (offset : Nat) : Checked UInt32 := do
  let x ← bytesAt 4 b offset
  return UInt32.ofNat (leNat x)

def u64At (b : Bytes) (offset : Nat) : Checked UInt64 := do
  let x ← bytesAt 8 b offset
  return UInt64.ofNat (leNat x)

def tailAt (b : Bytes) (offset : Nat) : Checked Bytes :=
  if offset ≤ b.length then .ok (b.drop offset) else .error .overrun

def rowsAt (row : Bytes → Nat → Checked α) (unit : Nat) (b : Bytes) :
    Nat → Nat → Checked (List α × Nat)
  | 0, offset => .ok ([], offset)
  | n + 1, offset => do
    let a ← row b offset
    let (l, last) ← rowsAt row unit b n (offset + unit)
    return (a :: l, last)

def ofReader (r : Reader α) (b : Bytes) : Checked (α × Bytes) :=
  match r b with
  | some x => .ok x
  | none => refuse

/-! ### Values -/

theorem bind_ok {x : Checked α} {f : α → Checked β} {c : β} :
    (x >>= f) = .ok c ↔ ∃ a, x = .ok a ∧ f a = .ok c := by
  cases x with
  | error e => simp [bind, Except.bind]
  | ok a => simp [bind, Except.bind]

theorem pure_ok {a c : α} : (pure a : Checked α) = .ok c ↔ a = c := by
  simp [pure, Except.pure]

theorem ite_refuse_ok {c : Prop} [Decidable c] {x : Checked α} {a : α} :
    (if c then refuse else x) = .ok a ↔ ¬c ∧ x = .ok a := by
  split
  · next h => simp [h, refuse]
  · next h => simp [h]

theorem sizeSub_ok {a b c : Nat} : sizeSub a b = .ok c ↔ b ≤ a ∧ a - b = c := by
  unfold sizeSub
  split
  · next h => simp [h]
  · next h => simp [h]

variable {b x : Bytes}

theorem ofReader_ok {r : Reader α} {rest : Bytes} {a : α} :
    ofReader r b = .ok (a, rest) ↔ r b = some (a, rest) := by
  unfold ofReader
  split
  · next x h => simp [h]
  · next h => simp [h, refuse]

variable {n offset : Nat}

theorem fixedAt_ok (hn : 0 < n) {x : FixedBytes n} :
    fixedAt n b offset = .ok x ↔ x.1 <+: b.drop offset := by
  obtain ⟨x, hx⟩ := x
  unfold fixedAt
  constructor
  · intro h
    split at h
    · cases h
      exact List.take_prefix n _
    · cases h
  · intro h
    have hlen := h.length_le
    rw [List.length_drop, hx] at hlen
    rw [dif_pos (by omega)]
    congr
    have htake : x = (b.drop offset).take x.length := List.prefix_iff_eq_take.mp h
    rw [htake, hx]

theorem bytesAt_ok (hn : 0 < n) :
    bytesAt n b offset = .ok x ↔ x.length = n ∧ x <+: b.drop offset := by
  simp only [bytesAt, bind_ok, pure_ok, fixedAt_ok hn]
  constructor
  · rintro ⟨y, hy, rfl⟩
    exact ⟨y.2, hy⟩
  · rintro ⟨hx, hprefix⟩
    exact ⟨⟨x, hx⟩, hprefix, rfl⟩

theorem bytesAt_ok_iff :
    bytesAt n b offset = .ok x ↔ offset + n ≤ b.length ∧ x.length = n ∧ x <+: b.drop offset := by
  simp only [bytesAt, bind_ok, pure_ok, fixedAt]
  constructor
  · rintro ⟨y, hy, rfl⟩
    split at hy
    · next hfits =>
      cases hy
      exact ⟨hfits, by rw [List.length_take, List.length_drop]; omega, List.take_prefix n _⟩
    · cases hy
  · rintro ⟨hfits, hx, hprefix⟩
    refine ⟨⟨x, hx⟩, ?_, rfl⟩
    rw [dif_pos hfits]
    congr
    rw [← hx]
    exact (List.prefix_iff_eq_take.mp hprefix).symm

theorem byteAt_ok {x : UInt8} :
    byteAt b offset = .ok x ↔ [x] <+: b.drop offset := by
  have hget : b[offset]? = (b.drop offset)[0]? := by simp
  unfold byteAt
  rw [hget]
  cases b.drop offset with
  | nil => simp
  | cons y rest => simp [List.cons_prefix_cons, eq_comm]

/-- A little-endian integer of `w` bytes at an offset, given the two conversions. -/
theorem leAt_ok {W : Type} {w : Nat} {ofNat : Nat → W} {toNat : W → Nat} (hw : 0 < w) (hlt : ∀ v, toNat v < 256 ^ w)
    (hto : ∀ v, ofNat (toNat v) = v) (hof : ∀ k < 256 ^ w, toNat (ofNat k) = k) {v : W} :
    (do let x ← bytesAt w b offset; return ofNat (leNat x) : Checked W) = .ok v ↔
      leBytes w (toNat v) <+: b.drop offset := by
  simp only [bind_ok, pure_ok, bytesAt_ok hw]
  constructor
  · rintro ⟨x, ⟨rfl, hprefix⟩, rfl⟩
    rwa [hof _ (leNat_lt x), leBytes_leNat]
  · intro h
    exact ⟨leBytes w (toNat v), ⟨length_leBytes w _, h⟩, by rw [leNat_leBytes (hlt v), hto]⟩

theorem u32At_ok {v : UInt32} : u32At b offset = .ok v ↔ le32 v <+: b.drop offset :=
  leAt_ok (by decide) UInt32.toNat_lt (fun _ => UInt32.ofNat_toNat) fun _ => UInt32.toNat_ofNat_of_lt'

theorem u64At_ok {v : UInt64} : u64At b offset = .ok v ↔ le64 v <+: b.drop offset :=
  leAt_ok (by decide) UInt64.toNat_lt (fun _ => UInt64.ofNat_toNat) fun _ => UInt64.toNat_ofNat_of_lt'

theorem tailAt_ok :
    tailAt b offset = .ok x ↔ offset ≤ b.length ∧ b.drop offset = x := by
  unfold tailAt
  split
  · next h => simp [h]
  · next h => simp [h]

theorem append_prefix_drop {y : Bytes} :
    x ++ y <+: b.drop offset ↔ x <+: b.drop offset ∧ y <+: b.drop (offset + x.length) := by
  constructor
  · rintro ⟨rest, h⟩
    refine ⟨⟨y ++ rest, by rw [← h, List.append_assoc]⟩, ⟨rest, ?_⟩⟩
    rw [← List.drop_drop, ← h, List.append_assoc, List.drop_left]
  · rintro ⟨⟨rest, h⟩, h'⟩
    rw [← List.drop_drop, ← h, List.drop_left] at h'
    obtain ⟨rest', rfl⟩ := h'
    exact ⟨rest', by rw [← h, List.append_assoc]⟩

theorem drop_eq_append (h : x <+: b.drop offset) :
    b.drop offset = x ++ b.drop (offset + x.length) := by
  obtain ⟨rest, h⟩ := h
  rw [← List.drop_drop, ← h, List.drop_left]

/-- The rows are exactly the encodings that stand at the offset. -/
theorem rowsAt_ok {row : Bytes → Nat → Checked α} {unit : Nat} {enc : α → Bytes} {ok : α → Prop}
    (hsize : ∀ a, (enc a).length = unit)
    (h : ∀ b offset a, row b offset = .ok a ↔ ok a ∧ enc a <+: b.drop offset) {last : Nat} {l : List α} :
    rowsAt row unit b n offset = .ok (l, last) ↔
      (l.length = n ∧ ∀ a ∈ l, ok a) ∧ Reader.concat enc l <+: b.drop offset ∧
        last = offset + n * unit := by
  induction n generalizing offset last l with
  | zero =>
    simp only [rowsAt, Except.ok.injEq, Prod.mk.injEq]
    constructor
    · rintro ⟨rfl, rfl⟩
      simp
    · rintro ⟨⟨hl, -⟩, -, rfl⟩
      exact ⟨(List.length_eq_zero_iff.mp hl).symm, by simp⟩
  | succ n ih =>
    have hlast : offset + unit + n * unit = offset + (n + 1) * unit := by
      rw [Nat.add_mul]
      omega
    simp only [rowsAt, bind_ok, pure_ok, h, Prod.exists, Prod.mk.injEq, ih]
    constructor
    · rintro ⟨a, ⟨hok, henc⟩, l', _, ⟨⟨rfl, hall⟩, hrest, rfl⟩, rfl, rfl⟩
      refine ⟨⟨rfl, List.forall_mem_cons.mpr ⟨hok, hall⟩⟩, ?_, hlast⟩
      rw [Reader.concat_cons, append_prefix_drop, hsize]
      exact ⟨henc, hrest⟩
    · rintro ⟨⟨hlen, hall⟩, hprefix, rfl⟩
      cases l with
      | nil => cases hlen
      | cons a l =>
        obtain ⟨hok, hall⟩ := List.forall_mem_cons.mp hall
        rw [Reader.concat_cons, append_prefix_drop, hsize] at hprefix
        exact ⟨a, ⟨hok, hprefix.1⟩, l, _, ⟨⟨by simpa using hlen, hall⟩, hprefix.2, rfl⟩, rfl,
          hlast⟩

/-! ### Faults -/

/-- The only way to fail is to refuse. -/
def Safe (x : Checked α) : Prop := ∀ fault, x = .error fault → fault = .refused

theorem Safe.ok (a : α) : Safe (.ok a : Checked α) := by
  intro fault h
  cases h

theorem Safe.pure (a : α) : Safe (pure a : Checked α) := Safe.ok a

theorem Safe.refuse : Safe (refuse : Checked α) := by
  intro fault h
  cases h
  rfl

theorem Safe.bind {x : Checked α} {f : α → Checked β} (hx : Safe x)
    (hf : ∀ a, x = .ok a → Safe (f a)) : Safe (x >>= f) := by
  cases x with
  | error e => exact fun fault h => hx fault (by simpa [Bind.bind, Except.bind] using h)
  | ok a => exact hf a rfl

theorem Safe.ite {c : Prop} [Decidable c] {x y : Checked α} (hx : c → Safe x) (hy : ¬c → Safe y) :
    Safe (if c then x else y) := by
  split
  · next h => exact hx h
  · next h => exact hy h

theorem Safe.ofReader (r : Reader α) (b : Bytes) : Safe (ofReader r b) := by
  unfold Checked.ofReader
  split
  · exact Safe.ok _
  · exact Safe.refuse

theorem Safe.sizeSub {a b : Nat} (h : b ≤ a) : Safe (sizeSub a b) := by
  rw [Checked.sizeSub, if_pos h]
  exact Safe.ok _

theorem Safe.fixedAt (h : offset + n ≤ b.length) :
    Safe (fixedAt n b offset) := by
  rw [Checked.fixedAt, dif_pos h]
  exact Safe.ok _

theorem Safe.bytesAt (h : offset + n ≤ b.length) :
    Safe (bytesAt n b offset) :=
  (Safe.fixedAt h).bind fun _ _ => Safe.pure _

theorem Safe.byteAt (h : offset < b.length) : Safe (byteAt b offset) := by
  rw [Checked.byteAt, List.getElem?_eq_getElem h]
  exact Safe.ok _

theorem Safe.u32At (h : offset + 4 ≤ b.length) : Safe (u32At b offset) :=
  (Safe.bytesAt h).bind fun _ _ => Safe.pure _

theorem Safe.u64At (h : offset + 8 ≤ b.length) : Safe (u64At b offset) :=
  (Safe.bytesAt h).bind fun _ _ => Safe.pure _

theorem Safe.tailAt (h : offset ≤ b.length) : Safe (tailAt b offset) := by
  rw [Checked.tailAt, if_pos h]
  exact Safe.ok _

theorem Safe.rowsAt {row : Bytes → Nat → Checked α} {unit : Nat}
    (h : ∀ offset, offset + unit ≤ b.length → Safe (row b offset))
    (hfits : offset + n * unit ≤ b.length) : Safe (rowsAt row unit b n offset) := by
  induction n generalizing offset with
  | zero => exact Safe.ok _
  | succ n ih =>
    rw [Nat.add_mul] at hfits
    exact (h offset (by omega)).bind fun _ _ => (ih (by omega)).bind fun _ _ => Safe.pure _

end Checked

end Cybou.Library

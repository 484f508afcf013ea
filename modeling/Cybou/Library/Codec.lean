import Cybou.Library.Bytes
import Cybou.Library.OrdMap

/-! # Readers that accept exactly the encodings they should

A reader takes bytes off the front of its input or fails.  The one predicate
used about readers is `Exact p enc ok`: on every input, `p` succeeds with `a`
leaving `rest` if and only if `a` is admissible and the input is `enc a`
followed by `rest`.  Read from right to left it is the round trip, read from
left to right it is canonicity, and it composes through `>>=` because the
unread suffix is explicit.

`repeatN` and `mapN` are the two loops of the formats: a counted vector, and a
counted map section whose keys must arrive in strictly increasing order.
-/

namespace Cybou.Library

/-- Consume a prefix of the input, or fail. -/
abbrev Reader := StateT Bytes Option

namespace Reader

variable {α β γ : Type}

/-! ### Primitive readers -/

def u8 : Reader UInt8
  | [] => none
  | x :: rest => some (x, rest)

def bytes (n : Nat) : Reader Bytes := fun b =>
  if n ≤ b.length then some (b.take n, b.drop n) else none

/-- The next `n` bytes, copied into an array. -/
def fixed (n : Nat) : Reader (FixedBytes n) := fun b =>
  if h : n ≤ b.length then some (⟨b.take n, by simp [h]⟩, b.drop n) else none

def u16 : Reader UInt16 := do
  let b ← bytes 2
  return UInt16.ofNat (leNat b)

def u32 : Reader UInt32 := do
  let b ← bytes 4
  return UInt32.ofNat (leNat b)

def u64 : Reader UInt64 := do
  let b ← bytes 8
  return UInt64.ofNat (leNat b)

def remaining : Reader Nat := fun b => some (b.length, b)

def rest : Reader Bytes := fun b => some (b, [])

def literal (l : Bytes) : Reader Unit := fun b =>
  if b.take l.length = l then some ((), b.drop l.length) else none

/-- Fail unless the condition holds. -/
def require (c : Prop) [Decidable c] : Reader Unit := fun b =>
  if c then some ((), b) else none

/-- Fail where an optional value is absent. -/
def ofOption (o : Option α) : Reader α := fun b => o.map fun a => (a, b)

/-- A `uint32_t` element count. -/
def count : Reader Nat := do
  let n ← u32
  return n.toNat

/-- Reject a count that cannot fit in the remaining input at `unit` bytes
    for each element. -/
def fits (unit n : Nat) : Reader Unit := do
  let rest ← remaining
  require (n ≤ rest / unit)

/-- Read exactly `n` elements. -/
def repeatN (p : Reader α) : Nat → Reader (List α)
  | 0 => pure []
  | n + 1 => do
    let a ← p
    let l ← repeatN p n
    return a :: l

/-- Read `n` more elements, each admissible after those before it. -/
def growN (p : Reader α) (ok : List α → α → Prop) [∀ l a, Decidable (ok l a)] :
    Nat → List α → Reader (List α)
  | 0, l => pure l
  | n + 1, l => do
    let a ← p
    require (ok l a)
    growN p ok n (l ++ [a])

/-- The loop of a map section: each key must exceed the one before it. -/
def mapN {K V : Type} [LinearOrder K] (p : Reader (K × V)) :
    Nat → Option K → OrdMap K V → Reader (OrdMap K V)
  | 0, _, m => pure m
  | n + 1, prior, m => do
    let e ← p
    require (prior.all (· < e.1) = true)
    mapN p n (some e.1) (m.emplace e.1 e.2)

def whole (p : Reader α) (b : Bytes) : Option α :=
  match p b with
  | some (a, []) => some a
  | _ => none

/-! ### What the primitives accept -/

variable {b r : Bytes}

theorem bind_eq_some {p : Reader α} {f : α → Reader β} {c : β} :
    (p >>= f) b = some (c, r) ↔ ∃ a r', p b = some (a, r') ∧ f a r' = some (c, r) := by
  simp [bind, StateT.bind, Option.bind_eq_some_iff, Prod.exists]

theorem pure_eq_some {a c : α} :
    (pure a : Reader α) b = some (c, r) ↔ a = c ∧ b = r := by
  simp [pure, StateT.pure]

theorem require_bind {c : Prop} [Decidable c] {f : Unit → Reader β} {a : β} :
    (require c >>= f) b = some (a, r) ↔ c ∧ f () b = some (a, r) := by
  rw [bind_eq_some]
  by_cases h : c
  · simp only [require, h, if_true, Option.some.injEq, Prod.mk.injEq, true_and]
    exact ⟨fun ⟨_, _, rfl, h⟩ => h, fun h => ⟨(), b, rfl, h⟩⟩
  · simp [require, h]

theorem require_bind_apply {c : Prop} [Decidable c] (f : Unit → Reader β) (b : Bytes) :
    (require c >>= f) b = if c then f () b else none := by
  change (require c b).bind (fun x => f x.1 x.2) = _
  by_cases h : c <;> simp [require, h]

theorem ofOption_bind {o : Option α} {f : α → Reader β} {c : β} :
    (ofOption o >>= f) b = some (c, r) ↔ ∃ a, o = some a ∧ f a b = some (c, r) := by
  rw [bind_eq_some]
  cases o with
  | none => simp [ofOption]
  | some a =>
    simp only [ofOption, Option.map_some, Option.some.injEq, Prod.mk.injEq]
    exact ⟨fun ⟨_, _, ⟨rfl, rfl⟩, h⟩ => ⟨_, rfl, h⟩, fun ⟨_, h, h'⟩ => ⟨_, _, ⟨h, rfl⟩, h'⟩⟩

theorem remaining_bind {f : Nat → Reader β} {a : β} :
    (remaining >>= f) b = some (a, r) ↔ f b.length b = some (a, r) := by
  rw [bind_eq_some]
  simp [remaining]

theorem literal_bind_append {f : Unit → Reader β} (l r : Bytes) : (literal l >>= f) (l ++ r) = f () r := by
  change (literal l (l ++ r)).bind (fun x => f x.1 x.2) = _
  rw [literal, List.take_left, if_pos rfl, List.drop_left, Option.bind_some]

theorem whole_eq_some {p : Reader α} {a : α} :
    p.whole b = some a ↔ p b = some (a, []) := by
  unfold whole
  split
  · next a' h => simp [h]
  · next h =>
    simp only [reduceCtorEq, false_iff]
    exact h a

/-! ### Exact readers -/

/-- `p` accepts the encodings of the admissible values and nothing else. -/
def Exact (p : Reader α) (enc : α → Bytes) (ok : α → Prop) : Prop :=
  ∀ b a r, p b = some (a, r) ↔ ok a ∧ b = enc a ++ r

theorem Exact.bind {p : Reader α} {enc : α → Bytes} {ok : α → Prop} (h : Exact p enc ok)
    {f : α → Reader β} {c : β} :
    (p >>= f) b = some (c, r) ↔
      ∃ a r', ok a ∧ b = enc a ++ r' ∧ f a r' = some (c, r) := by
  rw [bind_eq_some]
  simp only [h _ _ _, and_assoc]

theorem Exact.bind_append {p : Reader α} {enc : α → Bytes} {ok : α → Prop} (h : Exact p enc ok)
    {a : α} (ha : ok a) (f : α → Reader β) (r : Bytes) : (p >>= f) (enc a ++ r) = f a r := by
  have hread : p (enc a ++ r) = some (a, r) := (h _ _ _).mpr ⟨ha, rfl⟩
  change (p (enc a ++ r)).bind (fun x => f x.1 x.2) = f a r
  rw [hread, Option.bind_some]

theorem Exact.append_inj {p : Reader α} {enc : α → Bytes} {ok : α → Prop} (h : Exact p enc ok) {a a' : α}
    {r' : Bytes} (ha : ok a) (ha' : ok a') (heq : enc a ++ r = enc a' ++ r') : a = a' ∧ r = r' := by
  have hread : p (enc a ++ r) = some (a, r) := (h _ _ _).mpr ⟨ha, rfl⟩
  have hread' : p (enc a ++ r) = some (a', r') := (h _ _ _).mpr ⟨ha', heq⟩
  exact Prod.mk.inj (Option.some.inj (hread.symm.trans hread'))

theorem Exact.whole {p : Reader α} {enc : α → Bytes} {ok : α → Prop} (h : Exact p enc ok)
    {a : α} : p.whole b = some a ↔ ok a ∧ b = enc a := by
  rw [whole_eq_some, h, List.append_nil]

/-! ### Writers and parsers that undo each other -/

/-- Run a reader on a whole input of one admissible size. -/
def sized (n : Nat) (p : Reader α) (b : Bytes) : Option α :=
  if b.length ≠ n then none else p.whole b

def Inverse (ser : α → Option Bytes) (des : Bytes → Option α) : Prop :=
  ∀ b a, des b = some a ↔ ser a = some b

variable {n unit : Nat}

theorem length_of_sized {p : Reader α} {a : α} (h : p.sized n b = some a) :
    b.length = n := by
  rw [Reader.sized, Option.ite_none_left_eq_some, not_not] at h
  exact h.1

theorem Exact.sized {p : Reader α} {enc : α → Bytes} {ok : α → Prop} (h : Exact p enc ok)
    (hsize : ∀ a, ok a → (enc a).length = n) {a : α} :
    p.sized n b = some a ↔ ok a ∧ b = enc a := by
  rw [Reader.sized, Option.ite_none_left_eq_some, h.whole, not_not, and_iff_right_iff_imp]
  rintro ⟨hok, rfl⟩
  exact hsize a hok

theorem Exact.inverse {p : Reader α} {enc : α → Bytes} {ok : α → Prop} (h : Exact p enc ok)
    (hsize : ∀ a, ok a → (enc a).length = n) {ser : α → Option Bytes}
    (hser : ∀ a b, ser a = some b ↔ ok a ∧ b = enc a) : Inverse ser (p.sized n) :=
  fun b a => (h.sized hsize).trans (hser a b).symm

theorem bytes_eq_some {x : Bytes} :
    bytes n b = some (x, r) ↔ x.length = n ∧ b = x ++ r := by
  unfold bytes
  constructor
  · intro h
    split at h
    · next hn =>
      cases h
      exact ⟨List.length_take_of_le hn, (List.take_append_drop n b).symm⟩
    · cases h
  · rintro ⟨rfl, rfl⟩
    simp

theorem bytes_exact (n : Nat) : Exact (bytes n) id (fun x => x.length = n) :=
  fun _ _ _ => bytes_eq_some

theorem u8_exact : Exact u8 (fun x => [x]) (fun _ => True) := by
  intro b a r
  cases b with
  | nil => simp [u8]
  | cons x rest => simp [u8]

theorem fixed_exact (n : Nat) : Exact (fixed n) (fun x => x.1) (fun _ => True) := by
  intro b a r
  obtain ⟨x, rfl⟩ := a
  have := bytes_eq_some (n := x.length) (b := b) (x := x) (r := r)
  simp only [true_and, bytes] at this ⊢
  rw [← this, fixed]
  split <;> simp

/-- A little-endian integer of `w` bytes, given the two conversions. -/
theorem le_exact {W : Type} {w : Nat} {ofNat : Nat → W} {toNat : W → Nat} (hlt : ∀ v, toNat v < 256 ^ w)
    (hto : ∀ v, ofNat (toNat v) = v) (hof : ∀ k < 256 ^ w, toNat (ofNat k) = k) :
    Exact (do let b ← bytes w; return ofNat (leNat b)) (fun v => leBytes w (toNat v)) (fun _ => True) := by
  intro b a r
  simp only [bind_eq_some, pure_eq_some, bytes_eq_some, true_and]
  constructor
  · rintro ⟨x, _, ⟨rfl, rfl⟩, rfl, rfl⟩
    rw [hof _ (leNat_lt x), leBytes_leNat]
  · rintro rfl
    exact ⟨leBytes w (toNat a), r, ⟨length_leBytes w _, rfl⟩, by rw [leNat_leBytes (hlt a), hto], rfl⟩

theorem u16_exact : Exact u16 le16 (fun _ => True) :=
  le_exact UInt16.toNat_lt (fun _ => UInt16.ofNat_toNat) fun _ => UInt16.toNat_ofNat_of_lt'

theorem u32_exact : Exact u32 le32 (fun _ => True) :=
  le_exact UInt32.toNat_lt (fun _ => UInt32.ofNat_toNat) fun _ => UInt32.toNat_ofNat_of_lt'

theorem u64_exact : Exact u64 le64 (fun _ => True) :=
  le_exact UInt64.toNat_lt (fun _ => UInt64.ofNat_toNat) fun _ => UInt64.toNat_ofNat_of_lt'

theorem count_exact : Exact count le32Of (· < 2 ^ 32) := by
  intro b a r
  simp only [count, u32_exact.bind, pure_eq_some, true_and]
  constructor
  · rintro ⟨v, _, rfl, rfl, rfl⟩
    exact ⟨v.toNat_lt, by rw [le32Of, UInt32.ofNat_toNat]⟩
  · rintro ⟨ha, rfl⟩
    exact ⟨UInt32.ofNat a, r, rfl, UInt32.toNat_ofNat_of_lt' ha, rfl⟩

theorem literal_exact (l : Bytes) : Exact (literal l) (fun _ => l) (fun _ => True) := by
  intro b a r
  unfold literal
  constructor
  · intro h
    split at h
    · next htake =>
      cases h
      refine ⟨trivial, ?_⟩
      calc b = b.take l.length ++ b.drop l.length := (List.take_append_drop l.length b).symm
        _ = l ++ b.drop l.length := by rw [htake]
    · cases h
  · rintro ⟨-, rfl⟩
    rw [List.take_left, if_pos rfl, List.drop_left]

/-! ### Counted vectors -/

/-- The encodings of the elements, one after the other. -/
def concat (enc : α → Bytes) (l : List α) : Bytes := (l.map enc).flatten

@[simp] theorem concat_nil (enc : α → Bytes) : concat enc [] = [] := rfl

@[simp] theorem concat_cons (enc : α → Bytes) (a : α) (l : List α) :
    concat enc (a :: l) = enc a ++ concat enc l := rfl

theorem mul_length_le_concat {enc : α → Bytes} {l : List α}
    (h : ∀ a ∈ l, unit ≤ (enc a).length) : l.length * unit ≤ (concat enc l).length := by
  induction l with
  | nil => simp
  | cons a l ih =>
    have ha := h a List.mem_cons_self
    have hl := ih fun x hx => h x (List.mem_cons_of_mem _ hx)
    rw [concat_cons, List.length_cons, List.length_append, Nat.add_mul]
    omega

theorem length_concat {enc : α → Bytes} (h : ∀ a, (enc a).length = unit)
    (l : List α) : (concat enc l).length = l.length * unit := by
  induction l with
  | nil => simp
  | cons a l ih =>
    rw [concat_cons, List.length_cons, List.length_append, Nat.add_mul, h, ih]
    omega

theorem repeatN_exact {p : Reader α} {enc : α → Bytes} {ok : α → Prop} (h : Exact p enc ok)
    (n : Nat) : Exact (repeatN p n) (concat enc) (fun l => l.length = n ∧ ∀ a ∈ l, ok a) := by
  induction n with
  | zero =>
    intro b l r
    rw [repeatN, pure_eq_some]
    constructor
    · rintro ⟨rfl, rfl⟩
      simp
    · rintro ⟨⟨hl, -⟩, rfl⟩
      rw [List.length_eq_zero_iff] at hl
      simp [hl]
  | succ n ih =>
    intro b l r
    simp only [repeatN, h.bind, ih.bind, pure_eq_some]
    constructor
    · rintro ⟨a, _, ha, rfl, l', _, ⟨hlen, hok⟩, rfl, rfl, rfl⟩
      exact ⟨⟨by simp [hlen], List.forall_mem_cons.mpr ⟨ha, hok⟩⟩, by simp⟩
    · rintro ⟨⟨hlen, hok⟩, rfl⟩
      cases l with
      | nil => cases hlen
      | cons a l =>
        refine ⟨a, _, hok a List.mem_cons_self, by simp, l, r, ⟨?_, ?_⟩, rfl, rfl, rfl⟩
        · simpa using hlen
        · exact fun x hx => hok x (List.mem_cons_of_mem _ hx)

/-- A list that is read item by item, each checked against those before it. -/
theorem growN_eq_some {p : Reader α} {enc : α → Bytes} {okp : α → Prop} (h : Exact p enc okp)
    {ok : List α → α → Prop} [∀ l a, Decidable (ok l a)] {l l' : List α} :
    growN p ok n l b = some (l', r) ↔ ∃ new, new.length = n ∧ (∀ a ∈ new, okp a) ∧
      (∀ before a after, new = before ++ a :: after → ok (l ++ before) a) ∧
      l' = l ++ new ∧ b = concat enc new ++ r := by
  induction n generalizing l b with
  | zero =>
    rw [growN, pure_eq_some]
    constructor
    · rintro ⟨rfl, rfl⟩
      exact ⟨[], by simp⟩
    · rintro ⟨new, hlen, -, -, rfl, rfl⟩
      obtain rfl := List.length_eq_zero_iff.mp hlen
      simp
  | succ n ih =>
    simp only [growN, h.bind, require_bind, ih]
    constructor
    · rintro ⟨a, _, ha, rfl, hok, new, hlen, hokp, hoks, rfl, rfl⟩
      refine ⟨a :: new, by simp [hlen], List.forall_mem_cons.mpr ⟨ha, hokp⟩, ?_, by simp, by simp⟩
      intro before x after heq
      cases before with
      | nil =>
        obtain ⟨rfl, -⟩ := List.cons.inj heq
        simpa using hok
      | cons y before =>
        obtain ⟨rfl, hnew⟩ := List.cons.inj heq
        simpa using hoks before x after hnew
    · rintro ⟨new, hlen, hokp, hoks, rfl, rfl⟩
      cases new with
      | nil => cases hlen
      | cons a new =>
        obtain ⟨ha, hrest⟩ := List.forall_mem_cons.mp hokp
        refine ⟨a, concat enc new ++ r, ha, by simp, by simpa using hoks [] a new rfl, new,
          by simpa using hlen, hrest, ?_, by simp, rfl⟩
        intro before x after heq
        simpa using hoks (a :: before) x after (by rw [heq]; rfl)

theorem fits_bind {f : Unit → Reader β} {c : β} :
    (fits unit n >>= f) b = some (c, r) ↔ n ≤ b.length / unit ∧ f () b = some (c, r) := by
  rw [fits, bind_assoc, remaining_bind, require_bind]

theorem fits_repeatN {p : Reader α} {enc : α → Bytes} {ok : α → Prop} (h : Exact p enc ok)
    (hunit : 0 < unit) (hsize : ∀ a, ok a → unit ≤ (enc a).length) {f : List α → Reader β} {c : β} :
    (fits unit n >>= fun _ => repeatN p n >>= f) b = some (c, r) ↔
      ∃ l r', (l.length = n ∧ ∀ a ∈ l, ok a) ∧ b = concat enc l ++ r' ∧
        f l r' = some (c, r) := by
  rw [fits_bind, (repeatN_exact h n).bind, and_iff_right_iff_imp]
  rintro ⟨l, r', ⟨rfl, hok⟩, rfl, -⟩
  rw [Nat.le_div_iff_mul_le hunit, List.length_append]
  have hlen : l.length * unit ≤ (concat enc l).length :=
    mul_length_le_concat fun a ha => hsize a (hok a ha)
  omega

/-! ### Map sections -/

section Maps

variable {K V : Type} [LinearOrder K]

variable {k : K} {v : V}

theorem setIn_append {l : List (K × V)} (h : ∀ e ∈ l, e.1 < k) :
    setIn k v l = l ++ [(k, v)] := by
  induction l with
  | nil => rfl
  | cons e rest ih =>
    have he : e.1 < k := h e List.mem_cons_self
    rw [setIn, if_neg he.not_gt, if_neg he.ne, ih fun a ha => h a (List.mem_cons_of_mem _ ha)]
    rfl

theorem emplace_entries {m : OrdMap K V} (h : ∀ e ∈ m.entries, e.1 < k) :
    (m.emplace k v).entries = m.entries ++ [(k, v)] := by
  have hnone : m.find? k = none := findIn_eq_none.mpr fun e he => (h e he).ne
  rw [OrdMap.emplace_of_none hnone]
  exact setIn_append h

theorem emplace_le {m : OrdMap K V} (h : ∀ e ∈ m.entries, e.1 < k) :
    ∀ e ∈ (m.emplace k v).entries, ∃ k' ∈ some k, e.1 ≤ k' := by
  intro e he
  rw [emplace_entries h, List.mem_append, List.mem_singleton] at he
  rcases he with he | rfl
  · exact ⟨k, rfl, (h e he).le⟩
  · exact ⟨k, rfl, le_refl k⟩

variable {p : Reader (K × V)}

/-- The loop appends the entries it reads to those it started from, provided the
    last key so far bounds them. -/
theorem mapN_loop {enc : K × V → Bytes} {ok : K × V → Prop}
    (h : Exact p enc ok) (n : Nat) (prior : Option K) (m : OrdMap K V)
    (hprior : ∀ e ∈ m.entries, ∃ k ∈ prior, e.1 ≤ k) (b r : Bytes) (m' : OrdMap K V) :
    mapN p n prior m b = some (m', r) ↔
      ∃ l, m'.entries = m.entries ++ l ∧ l.length = n ∧ (∀ e ∈ l, ok e) ∧
        (∀ e ∈ l, ∀ k ∈ prior, k < e.1) ∧ b = concat enc l ++ r := by
  induction n generalizing prior m b with
  | zero =>
    rw [mapN, pure_eq_some]
    constructor
    · rintro ⟨rfl, rfl⟩
      exact ⟨[], by simp⟩
    · rintro ⟨l, hl, hlen, -, -, rfl⟩
      obtain rfl := List.length_eq_zero_iff.mp hlen
      exact ⟨OrdMap.ext_entries (by simpa using hl.symm), by simp⟩
  | succ n ih =>
    simp only [mapN, h.bind, require_bind, Option.all_eq_true, decide_eq_true_eq]
    -- a first key above `prior` is above everything already in the map
    have hall : ∀ k : K, (∀ k' ∈ prior, k' < k) → ∀ e ∈ m.entries, e.1 < k := by
      intro k hk e he
      obtain ⟨k', hk', hle⟩ := hprior e he
      exact hle.trans_lt (hk k' hk')
    constructor
    · rintro ⟨e, b', hok, rfl, hlt, hrun⟩
      have hm := hall e.1 hlt
      obtain ⟨l, hl, hlen, hokl, hltl, rfl⟩ := (ih _ _ (emplace_le hm) b').mp hrun
      refine ⟨e :: l, ?_, by simp [hlen], List.forall_mem_cons.mpr ⟨hok, hokl⟩, ?_, by simp⟩
      · rw [hl, emplace_entries hm, List.append_assoc]
        rfl
      · refine List.forall_mem_cons.mpr ⟨hlt, fun a ha k hk => ?_⟩
        exact (hlt k hk).trans (hltl a ha e.1 rfl)
    · rintro ⟨l, hl, hlen, hok, hlt, rfl⟩
      cases l with
      | nil => cases hlen
      | cons e l =>
        obtain ⟨hoke, hokl⟩ := List.forall_mem_cons.mp hok
        have hm := hall e.1 (List.forall_mem_cons.mp hlt).1
        have hasc : Ascending (m.entries ++ e :: l) := hl ▸ m'.ascending
        have htail := (List.pairwise_cons.mp (List.pairwise_append.mp hasc).2.1).1
        refine ⟨e, concat enc l ++ r, hoke, by simp, (List.forall_mem_cons.mp hlt).1, ?_⟩
        refine (ih _ _ (emplace_le hm) _).mpr ⟨l, ?_, by simpa using hlen, hokl, ?_, rfl⟩
        · rw [hl, emplace_entries hm, List.append_assoc]
          rfl
        · rintro a ha _ ⟨⟩
          exact htail a ha

theorem mapN_exact {enc : K × V → Bytes} {ok : K × V → Prop} (h : Exact p enc ok) (n : Nat) :
    Exact (mapN p n none ∅) (fun m => concat enc m.entries)
      (fun m => m.size = n ∧ ∀ e ∈ m.entries, ok e) := by
  intro b m r
  have hempty : (∅ : OrdMap K V).entries = [] := rfl
  rw [mapN_loop h n none ∅ (by simp [hempty])]
  simp [hempty, OrdMap.size, and_assoc]

theorem fits_mapN {enc : K × V → Bytes} {ok : K × V → Prop} (h : Exact p enc ok) {unit : Nat} (hunit : 0 < unit)
    (hsize : ∀ e, ok e → unit ≤ (enc e).length) {n : Nat} {f : OrdMap K V → Reader β} {b r : Bytes} {c : β} :
    (fits unit n >>= fun _ => mapN p n none ∅ >>= f) b = some (c, r) ↔
      ∃ m r', (m.size = n ∧ ∀ e ∈ m.entries, ok e) ∧ b = concat enc m.entries ++ r' ∧
        f m r' = some (c, r) := by
  rw [fits_bind, (mapN_exact h n).bind, and_iff_right_iff_imp]
  rintro ⟨m, r', ⟨rfl, hok⟩, rfl, -⟩
  rw [Nat.le_div_iff_mul_le hunit, List.length_append]
  have hlen : m.entries.length * unit ≤ (concat enc m.entries).length :=
    mul_length_le_concat fun e he => hsize e (hok e he)
  rw [OrdMap.size]
  omega

end Maps

end Reader

end Cybou.Library

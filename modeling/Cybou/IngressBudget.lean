import Cybou.Library.Bytes
import Cybou.Library.OrdMap

/-! # The ingress budget of a node (`p2p/ingress_budget.h`)

Storage transfers hold slots, counted for each address and in total.  Other work is
charged to a window of sixty seconds of its address, with counters for the window and for
the second under way.  `Meter` names the counters, with the quota of each and what each
kind of work costs it.
-/

namespace Cybou.P2p

open Library

abbrev Address := Bytes

/-! ### Storage transfers -/

/-- `IngressBudget::Transfers`. -/
structure Transfers where
  active : OrdMap Address Nat
  total : Nat

/-- `AcquireStorageTransfer`; the lookup in `active` makes an entry. -/
def Transfers.acquire (transfers : Transfers) (address : Address) : Bool × Transfers :=
  if transfers.total ≥ 8 then (false, transfers)
  else
    let count := (transfers.active.find? address).getD 0
    let active := transfers.active.set address count
    if count ≥ 2 then (false, { transfers with active })
    else (true, { active := active.set address (count + 1), total := transfers.total + 1 })

/-- `~TransferLease` of an acquired lease; `none` where a counter would wrap or has no entry. -/
def Transfers.release (transfers : Transfers) (address : Address) : Option Transfers :=
  match transfers.active.find? address with
  | none => none
  | some count =>
    if count = 0 ∨ transfers.total = 0 then none
    else some
      { active := if count - 1 = 0 then transfers.active.erase address else transfers.active.set address (count - 1)
        total := transfers.total - 1 }

/-! ### Windows -/

/-- `IngressBudget::Work`. -/
inductive Work where
  | connection | operation | storagePut | storageGet | storageProof
deriving DecidableEq, Repr

/-- The index of a storage request among `storage` and `storage_second`. -/
def Work.kind : Work → Option (Fin 3)
  | .connection | .operation => none
  | .storagePut => some 0
  | .storageGet => some 1
  | .storageProof => some 2

def SECOND : Int := 1000000000

def WINDOW : Int := 60 * SECOND

/-- `IngressBudget::Window`. -/
structure Window where
  start : Int
  second : Int := 0
  operations : Nat := 0
  operationsSecond : Nat := 0
  connections : Nat := 0
  connectionsSecond : Nat := 0
  bytesSecond : UInt64 := 0
  storage : Fin 3 → Nat := fun _ => 0
  storageSecond : Fin 3 → Nat := fun _ => 0
  storageBytes : UInt64 := 0
  storageBytesSecond : UInt64 := 0

namespace Window

def atSecond (w : Window) (now : Int) : Window :=
  let second := (now - w.start).tdiv SECOND
  if second ≠ w.second then
    { w with
      second := second
      operationsSecond := 0
      bytesSecond := 0
      connectionsSecond := 0
      storageSecond := fun _ => 0
      storageBytesSecond := 0 }
  else w

def chargeStorage (w : Window) (kind : Fin 3) (quotaSecond quota : Nat) (bytes : UInt64) : Bool × Window :=
  if w.storageSecond kind ≥ quotaSecond ∨ w.storage kind ≥ quota ∨ bytes > 0x2000000 - w.storageBytesSecond ∨
      bytes > 0x20000000 - w.storageBytes then (false, w)
  else (true,
    { w with
      storageSecond := Function.update w.storageSecond kind (w.storageSecond kind + 1)
      storage := Function.update w.storage kind (w.storage kind + 1)
      storageBytesSecond := w.storageBytesSecond + bytes
      storageBytes := w.storageBytes + bytes })

/-- The end of `Admit`: the work is counted, or refused without a trace. -/
def charge (w : Window) (work : Work) (bytes : UInt64) : Bool × Window :=
  match work with
  | .connection =>
    if w.connectionsSecond ≥ 4 ∨ w.connections ≥ 60 then (false, w)
    else (true, { w with connectionsSecond := w.connectionsSecond + 1, connections := w.connections + 1 })
  | .operation =>
    if w.operationsSecond ≥ 8 ∨ w.operations ≥ 120 ∨ bytes > 0x100000 - w.bytesSecond then (false, w)
    else (true,
      { w with
        operationsSecond := w.operationsSecond + 1
        operations := w.operations + 1
        bytesSecond := w.bytesSecond + bytes })
  | .storagePut => w.chargeStorage 0 64 2048 bytes
  | .storageGet => w.chargeStorage 1 64 2048 bytes
  | .storageProof => w.chargeStorage 2 8 120 bytes

end Window

/-- The two members that `Admit` works on. -/
structure IngressBudget where
  lastCleanup : Int
  peers : OrdMap Address Window

namespace IngressBudget

def cleanup (budget : IngressBudget) (now : Int) : IngressBudget :=
  if now - budget.lastCleanup ≥ SECOND ∨ budget.peers.size ≥ 4096 then
    { lastCleanup := now, peers := budget.peers.filter fun _ w => !decide (now - w.start ≥ WINDOW) }
  else budget

/-- The window that work of an address falls in, `none` where the table is full. -/
def window (budget : IngressBudget) (address : Address) (now : Int) : Option Window :=
  match budget.peers.find? address with
  | none => if budget.peers.size ≥ 4096 then none else some { start := now }
  | some w => if now - w.start ≥ WINDOW then some { start := now } else some w

/-- `Admit`. -/
def admitWork (budget : IngressBudget) (address : Address) (work : Work) (bytes : UInt64) (now : Int) :
    Bool × IngressBudget :=
  let budget := budget.cleanup now
  match budget.window address now with
  | none => (false, budget)
  | some w =>
    let (admitted, w) := (w.atSecond now).charge work bytes
    (admitted, { budget with peers := budget.peers.set address w })

end IngressBudget

/-! ### Meters -/

inductive Meter where
  | connections | connectionsSecond | operations | operationsSecond | bytesSecond
  | storage (kind : Fin 3) | storageSecond (kind : Fin 3) | storageBytes | storageBytesSecond
deriving DecidableEq, Repr

namespace Meter

def read : Meter → Window → Nat
  | connections, w => w.connections
  | connectionsSecond, w => w.connectionsSecond
  | operations, w => w.operations
  | operationsSecond, w => w.operationsSecond
  | bytesSecond, w => w.bytesSecond.toNat
  | storage kind, w => w.storage kind
  | storageSecond kind, w => w.storageSecond kind
  | storageBytes, w => w.storageBytes.toNat
  | storageBytesSecond, w => w.storageBytesSecond.toNat

def quota : Meter → Nat
  | connections => 60
  | connectionsSecond => 4
  | operations => 120
  | operationsSecond => 8
  | bytesSecond => 2 ^ 20
  | storage kind => if kind = 2 then 120 else 2048
  | storageSecond kind => if kind = 2 then 8 else 64
  | storageBytes => 512 * 2 ^ 20
  | storageBytesSecond => 32 * 2 ^ 20

def perSecond : Meter → Bool
  | connections | operations | storage _ | storageBytes => false
  | connectionsSecond | operationsSecond | bytesSecond | storageSecond _ | storageBytesSecond => true

def cost (work : Work) (bytes : UInt64) : Meter → Nat
  | connections | connectionsSecond => if work = .connection then 1 else 0
  | operations | operationsSecond => if work = .operation then 1 else 0
  | bytesSecond => if work = .operation then bytes.toNat else 0
  | storage kind | storageSecond kind => if work.kind = some kind then 1 else 0
  | storageBytes | storageBytesSecond => if work.kind.isSome = true then bytes.toNat else 0

end Meter

/-! ### What the operations do to the meters -/

namespace Window

variable {w : Window} {work : Work} {bytes : UInt64} {now : Int}

def WithinQuotas (w : Window) : Prop := ∀ meter : Meter, meter.read w ≤ meter.quota

theorem withinQuotas_opened (now : Int) : ({ start := now } : Window).WithinQuotas := by
  intro meter
  cases meter <;> exact Nat.zero_le _

theorem read_opened (meter : Meter) (now : Int) : meter.read { start := now } = 0 := by
  cases meter <;> rfl

@[simp] theorem start_atSecond (w : Window) (now : Int) : (w.atSecond now).start = w.start := by
  unfold atSecond
  dsimp only
  split
  · rfl
  · rfl

@[simp] theorem second_atSecond (w : Window) (now : Int) :
    (w.atSecond now).second = (now - w.start).tdiv SECOND := by
  unfold atSecond
  dsimp only
  split
  · rfl
  next heq => exact (not_not.mp heq).symm

theorem read_atSecond (w : Window) (now : Int) (meter : Meter) : meter.read (w.atSecond now) =
    if meter.perSecond = true ∧ (now - w.start).tdiv SECOND ≠ w.second then 0 else meter.read w := by
  unfold atSecond
  dsimp only
  by_cases hsecond : (now - w.start).tdiv SECOND ≠ w.second
  · rw [if_pos hsecond]
    cases meter with
    | connections | operations | storage _ | storageBytes => rfl
    | connectionsSecond | operationsSecond | bytesSecond | storageSecond _ | storageBytesSecond =>
      rw [if_pos ⟨rfl, hsecond⟩]
      rfl
  · rw [if_neg hsecond, if_neg fun h => hsecond h.2]

theorem WithinQuotas.atSecond (h : w.WithinQuotas) (now : Int) : (w.atSecond now).WithinQuotas := by
  intro meter
  rw [read_atSecond]
  split
  · exact Nat.zero_le _
  · exact h meter

theorem toNat_room {quota used : UInt64} (h : used.toNat ≤ quota.toNat) :
    (bytes > quota - used ↔ quota.toNat < used.toNat + bytes.toNat) ∧
      (used.toNat + bytes.toNat ≤ quota.toNat → (used + bytes).toNat = used.toNat + bytes.toNat) := by
  have hquota := quota.toNat_lt
  constructor
  · rw [gt_iff_lt, UInt64.lt_iff_toNat_lt, UInt64.toNat_sub_of_le _ _ (UInt64.le_iff_toNat_le.mpr h)]
    omega
  · intro hfits
    rw [UInt64.toNat_add, Nat.mod_eq_of_lt (by omega)]

/-- What charging does: admitted work is counted by every meter and keeps it within its quota,
    refused work changes nothing. -/
def Charged (w : Window) (work : Work) (bytes : UInt64) (result : Bool × Window) : Prop :=
  if result.1 = true then
    result.2.start = w.start ∧ result.2.second = w.second ∧
      ∀ meter : Meter, meter.read result.2 = meter.read w + meter.cost work bytes ∧
        meter.read result.2 ≤ meter.quota
  else result.2 = w

/-- The two meters of a storage request are charged together or not at all. -/
theorem chargeStorage_spec (h : w.WithinQuotas) {kind : Fin 3} (hkind : work.kind = some kind)
    (bytes : UInt64) : w.Charged work bytes (w.chargeStorage kind (Meter.storageSecond kind).quota
      (Meter.storage kind).quota bytes) := by
  obtain ⟨hsecondRoom, hsecondSum⟩ := @toNat_room bytes 0x2000000 w.storageBytesSecond (h .storageBytesSecond)
  obtain ⟨hroom, hsum⟩ := @toNat_room bytes 0x20000000 w.storageBytes (h .storageBytes)
  unfold chargeStorage
  split
  · exact rfl
  next hfree =>
  rw [not_or, not_or, not_or, hsecondRoom, hroom] at hfree
  obtain ⟨hsecond, hwindow, hbytesSecond, hbytes⟩ := hfree
  have hnot : work ≠ .connection ∧ work ≠ .operation := by
    constructor
    · rintro rfl
      cases hkind
    · rintro rfl
      cases hkind
  unfold Charged
  rw [if_pos rfl]
  refine ⟨rfl, rfl, fun meter => ?_⟩
  have hwithin := h meter
  cases meter with
  | connections | connectionsSecond =>
    rw [Meter.cost, if_neg hnot.1]
    exact ⟨rfl, hwithin⟩
  | operations | operationsSecond | bytesSecond =>
    rw [Meter.cost, if_neg hnot.2]
    exact ⟨rfl, hwithin⟩
  | storage other =>
    rw [Meter.cost, hkind]
    by_cases hother : other = kind
    · subst hother
      rw [if_pos rfl, Meter.read]
      dsimp only
      rw [Function.update_self]
      exact ⟨rfl, Nat.lt_of_not_le hwindow⟩
    · rw [if_neg fun heq => hother (Option.some.inj heq).symm, Meter.read]
      dsimp only
      rw [Function.update_of_ne hother]
      exact ⟨rfl, hwithin⟩
  | storageSecond other =>
    rw [Meter.cost, hkind]
    by_cases hother : other = kind
    · subst hother
      rw [if_pos rfl, Meter.read]
      dsimp only
      rw [Function.update_self]
      exact ⟨rfl, Nat.lt_of_not_le hsecond⟩
    · rw [if_neg fun heq => hother (Option.some.inj heq).symm, Meter.read]
      dsimp only
      rw [Function.update_of_ne hother]
      exact ⟨rfl, hwithin⟩
  | storageBytes =>
    rw [Meter.cost, hkind, Option.isSome_some, if_pos rfl, Meter.read, hsum (not_lt.mp hbytes)]
    exact ⟨rfl, not_lt.mp hbytes⟩
  | storageBytesSecond =>
    rw [Meter.cost, hkind, Option.isSome_some, if_pos rfl, Meter.read, hsecondSum (not_lt.mp hbytesSecond)]
    exact ⟨rfl, not_lt.mp hbytesSecond⟩

/-- A charge is admitted within every quota and counted, or nothing is counted. -/
theorem charge_spec (h : w.WithinQuotas) (work : Work) (bytes : UInt64) :
    w.Charged work bytes (w.charge work bytes) := by
  cases work with
  | connection =>
    unfold charge
    dsimp only
    split
    · exact rfl
    next hfree =>
    rw [not_or] at hfree
    unfold Charged
    rw [if_pos rfl]
    refine ⟨rfl, rfl, fun meter => ?_⟩
    have hwithin := h meter
    cases meter with
    | connections => exact ⟨rfl, Nat.lt_of_not_le hfree.2⟩
    | connectionsSecond => exact ⟨rfl, Nat.lt_of_not_le hfree.1⟩
    | operations | operationsSecond | bytesSecond | storage _ | storageSecond _ | storageBytes | storageBytesSecond =>
      exact ⟨rfl, hwithin⟩
  | operation =>
    obtain ⟨hroom, hsum⟩ := @toNat_room bytes 0x100000 w.bytesSecond (h .bytesSecond)
    unfold charge
    dsimp only
    split
    · exact rfl
    next hfree =>
    rw [not_or, not_or, hroom] at hfree
    unfold Charged
    rw [if_pos rfl]
    refine ⟨rfl, rfl, fun meter => ?_⟩
    have hwithin := h meter
    cases meter with
    | operations => exact ⟨rfl, Nat.lt_of_not_le hfree.2.1⟩
    | operationsSecond => exact ⟨rfl, Nat.lt_of_not_le hfree.1⟩
    | bytesSecond =>
      rw [Meter.read, hsum (not_lt.mp hfree.2.2)]
      exact ⟨rfl, not_lt.mp hfree.2.2⟩
    | connections | connectionsSecond | storage _ | storageSecond _ | storageBytes | storageBytesSecond =>
      exact ⟨rfl, hwithin⟩
  | storagePut => exact chargeStorage_spec h rfl bytes
  | storageGet => exact chargeStorage_spec h rfl bytes
  | storageProof => exact chargeStorage_spec h rfl bytes

end Window

end Cybou.P2p

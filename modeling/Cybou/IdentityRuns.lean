import Cybou.Supply

/-! # The identity registry over whole runs

However many calls are made, in whatever order and with whatever outcome, the
index holds the current recovery keys of the registered accounts and no other
key, and a call changes at most one record.  The two counters of a record only
ever go up by one, the key epoch in an accepted rotation alone.
-/

namespace Cybou

open Library

inductive RegistryCall where
  | register (create : AccountCreateOp) (networkBinding : Hash256) (blockHeight : UInt64)
      (params : CybouProtocolParameters)
  | rotateIdentity (request : IdentityRotate) (networkBinding : Hash256)
  | authorizeOperation (request : IdentityOperationAuthorization) (networkBinding : Hash256)

theorem toNat_add_one {a : UInt64} (h : a ≠ UINT64_MAX) : (a + 1).toNat = a.toNat + 1 := by
  have hne : a.toNat ≠ UINT64_MAX.toNat := fun heq => h (UInt64.toNat_inj.mp heq)
  have hmax : UINT64_MAX.toNat = 2 ^ 64 - 1 := by decide
  have hlt := a.toNat_lt
  rw [UInt64.toNat_add, UInt64.toNat_one, Nat.mod_eq_of_lt (by omega)]

namespace RegistryMaps

structure Replaced (m m' : RegistryMaps) (id : AccountId) (old new : IdentityRecord) : Prop where
  old : m.accounts.find? id = some old
  new : m'.accounts.find? id = some new
  others : ∀ id', id' ≠ id → m'.accounts.find? id' = m.accounts.find? id'

variable {m : RegistryMaps} {id : AccountId} {new old : IdentityRecord}

theorem Replaced.of_set {m' : RegistryMaps}
    (hold : m.accounts.find? id = some old) (h : m'.accounts = m.accounts.set id new) :
    Replaced m m' id old new where
  old := hold
  new := by rw [h, OrdMap.find?_set_self]
  others := by
    intro id' hne
    rw [h, OrdMap.find?_set_of_ne _ _ hne]

variable [Crypto]

def call (m : RegistryMaps) : RegistryCall → IdentityRegistryError × RegistryMaps
  | .register create networkBinding blockHeight params =>
    m.register create networkBinding blockHeight params
  | .rotateIdentity request networkBinding => m.rotateIdentity request networkBinding
  | .authorizeOperation request networkBinding => m.authorizeOperation request networkBinding

def afterCalls (m : RegistryMaps) (calls : List RegistryCall) : RegistryMaps :=
  calls.foldl (fun m call => (m.call call).2) m

def CallDone (m m' : RegistryMaps) : RegistryCall → Prop
  | .register create _ _ _ => m.accounts.find? create.accountId = none ∧
      (∃ record, m'.accounts.find? create.accountId = some record ∧ record.nonce = 0 ∧
        record.keyEpoch = 0) ∧
      ∀ id, id ≠ create.accountId → m'.accounts.find? id = m.accounts.find? id
  | .rotateIdentity request _ => ∃ old new, Replaced m m' request.accountId old new ∧
      new.nonce.toNat = old.nonce.toNat + 1 ∧ new.keyEpoch.toNat = old.keyEpoch.toNat + 1
  | .authorizeOperation request _ => ∃ old new, Replaced m m' request.accountId old new ∧
      new.nonce.toNat = old.nonce.toNat + 1 ∧ new = { old with nonce := new.nonce } ∧
      m'.recoveryIndex = m.recoveryIndex

/-- The step, for all three calls of the registry. -/
theorem call_cases (m : RegistryMaps) (call : RegistryCall) :
    ((m.call call).1 ≠ .none ∧ (m.call call).2 = m) ∨
      ((m.call call).1 = .none ∧ CallDone m (m.call call).2 call) := by
  cases call with
  | register create networkBinding blockHeight params =>
    rcases m.register_cases create networkBinding blockHeight params with
      ⟨e, he, heq⟩ | ⟨recoveryId, _, packageId, -, hfresh, -, -, -, -, heq⟩
    · rw [RegistryMaps.call, heq]
      exact .inl ⟨he, rfl⟩
    · rw [RegistryMaps.call, heq]
      refine .inr ⟨rfl, hfresh, ⟨_, OrdMap.find?_set_self .., rfl, rfl⟩, ?_⟩
      intro id hne
      exact OrdMap.find?_set_of_ne _ _ hne
  | rotateIdentity request networkBinding =>
    rcases m.rotateIdentity_cases request networkBinding with ⟨e, he, heq⟩ |
      ⟨record, _, _, _, _, hrecord, -, hepoch, hnonce, hmax, -, -, -, -, -, -, heq⟩
    · rw [RegistryMaps.call, heq]
      exact .inl ⟨he, rfl⟩
    · rw [RegistryMaps.call, heq]
      refine .inr ⟨rfl, record, _, .of_set hrecord rfl, toNat_add_one hnonce, ?_⟩
      rw [hepoch]
      exact toNat_add_one hmax
  | authorizeOperation request networkBinding =>
    rcases m.authorizeOperation_cases request networkBinding with ⟨e, he, heq⟩ |
      ⟨record, _, hrecord, -, -, hnonce, -, -, heq⟩
    · rw [RegistryMaps.call, heq]
      exact .inl ⟨he, rfl⟩
    · rw [RegistryMaps.call, heq]
      exact .inr ⟨rfl, record, _, .of_set hrecord rfl, toNat_add_one hnonce, rfl, rfl⟩

theorem WellFormed.call {m : RegistryMaps} (h : m.WellFormed) (call : RegistryCall) :
    (m.call call).2.WellFormed := by
  cases call with
  | register create networkBinding blockHeight params =>
    exact h.register create networkBinding blockHeight params
  | rotateIdentity request networkBinding => exact h.rotateIdentity request networkBinding
  | authorizeOperation request networkBinding => exact h.authorizeOperation request networkBinding

theorem WellFormed.afterCalls (h : m.WellFormed) (calls : List RegistryCall) :
    (m.afterCalls calls).WellFormed := by
  induction calls generalizing m with
  | nil => exact h
  | cons call rest ih => exact ih (h.call call)

theorem WellFormed.recoveryIndex_iff (h : m.WellFormed) {key : IdentityKeyId}
    : m.recoveryIndex.find? key = some id ↔ ∃ record,
      m.accounts.find? id = some record ∧ computeRecoveryKeyId record.recoveryKey = some key := by
  constructor
  · exact h.registered key id
  · intro hrecord
    obtain ⟨record, hfind, hkey⟩ := hrecord
    obtain ⟨key', hkey', hindex⟩ := h.indexed id record hfind
    cases hkey.symm.trans hkey'
    exact hindex

/-- A key epoch moves in an accepted rotation of its own account only. -/
theorem keyEpoch_changed {call : RegistryCall} (hold : m.accounts.find? id = some old)
    (hnew : (m.call call).2.accounts.find? id = some new) (hne : new.keyEpoch ≠ old.keyEpoch) :
    ∃ request networkBinding, call = .rotateIdentity request networkBinding ∧
      request.accountId = id ∧ (m.call call).1 = .none ∧
      new.keyEpoch.toNat = old.keyEpoch.toNat + 1 := by
  have hsame : ∀ {id'}, m.accounts.find? id' = some old →
      (m.call call).2.accounts.find? id' = m.accounts.find? id' → id' = id → False := by
    intro id' hfind hkept heq
    subst heq
    rw [hkept, hold] at hnew
    cases hnew
    exact hne rfl
  rcases m.call_cases call with ⟨-, hunchanged⟩ | ⟨hok, hdone⟩
  · rw [hunchanged, hold] at hnew
    cases hnew
    exact absurd rfl hne
  cases call with
  | register create networkBinding blockHeight params =>
    obtain ⟨hfresh, -, hothers⟩ := hdone
    have hid : id ≠ create.accountId := by
      intro heq
      subst heq
      cases hold.symm.trans hfresh
    exact (hsame hold (hothers id hid) rfl).elim
  | rotateIdentity request networkBinding =>
    obtain ⟨old', new', hreplaced, -, hepoch⟩ := hdone
    by_cases hid : id = request.accountId
    · subst hid
      cases hold.symm.trans hreplaced.old
      cases hnew.symm.trans hreplaced.new
      exact ⟨request, networkBinding, rfl, rfl, hok, hepoch⟩
    · exact (hsame hold (hreplaced.others id hid) rfl).elim
  | authorizeOperation request networkBinding =>
    obtain ⟨old', new', hreplaced, -, hrecord, -⟩ := hdone
    by_cases hid : id = request.accountId
    · subst hid
      cases hold.symm.trans hreplaced.old
      cases hnew.symm.trans hreplaced.new
      rw [hrecord] at hne
      exact absurd rfl hne
    · exact (hsame hold (hreplaced.others id hid) rfl).elim

/-- **The registry over whole runs.**  After any calls the index is exactly the
    inverse of the current recovery keys, and the next call is rejected without a
    trace or changes one record as its method says. -/
theorem registry_runs {start : RegistryMaps} (hstart : start.WellFormed)
    (calls : List RegistryCall) (call : RegistryCall) :
    let m := start.afterCalls calls
    (∀ key id, m.recoveryIndex.find? key = some id ↔ ∃ record,
      m.accounts.find? id = some record ∧ computeRecoveryKeyId record.recoveryKey = some key) ∧
    (∀ id record, m.accounts.find? id = some record →
      ∃ key, computeRecoveryKeyId record.recoveryKey = some key) ∧
    ((m.call call).1 ≠ .none → (m.call call).2 = m) ∧
    ((m.call call).1 = .none → CallDone m (m.call call).2 call) ∧
    ∀ id old new, m.accounts.find? id = some old → (m.call call).2.accounts.find? id = some new →
      new.keyEpoch ≠ old.keyEpoch → ∃ request networkBinding,
        call = .rotateIdentity request networkBinding ∧ request.accountId = id ∧
        (m.call call).1 = .none ∧ new.keyEpoch.toNat = old.keyEpoch.toNat + 1 := by
  intro m
  have hm : m.WellFormed := hstart.afterCalls calls
  refine ⟨fun key id => hm.recoveryIndex_iff, ?_, ?_, ?_, ?_⟩
  · intro id record hfind
    obtain ⟨key, hkey, -⟩ := hm.indexed id record hfind
    exact ⟨key, hkey⟩
  · intro hrejected
    rcases m.call_cases call with ⟨-, hunchanged⟩ | ⟨hok, -⟩
    · exact hunchanged
    · exact absurd hok hrejected
  · intro hok
    rcases m.call_cases call with ⟨hrejected, -⟩ | ⟨-, hdone⟩
    · exact absurd hok hrejected
    · exact hdone
  · intro id old new hold hnew hne
    exact keyEpoch_changed hold hnew hne

end RegistryMaps

section Sample

set_option maxRecDepth 10000

attribute [local instance] Crypto.sample

/-- The lock of account 1 is authorized once. -/
theorem registry_runs_sampleLock :
    let call := RegistryCall.authorizeOperation sampleLock.authorization sampleContext.networkBinding
    let m := sampleIdentities.toRegistryMaps
    (m.call call).1 = .none ∧ RegistryMaps.CallDone m (m.call call).2 call ∧
      ((m.afterCalls [call]).call call).2 = m.afterCalls [call] := by
  intro call m
  have hfirst : (m.call call).1 = .none := by decide
  have hsecond : ((m.afterCalls [call]).call call).1 ≠ .none := by decide
  obtain ⟨-, -, -, hdone, -⟩ := RegistryMaps.registry_runs sampleIdentities.wellFormed [] call
  obtain ⟨-, -, hrejected, -, -⟩ :=
    RegistryMaps.registry_runs sampleIdentities.wellFormed [call] call
  exact ⟨hfirst, hdone hfirst, hrejected hsecond⟩

end Sample

end Cybou

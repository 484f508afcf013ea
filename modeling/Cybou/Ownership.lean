import Cybou.SettlementRuns

/-! # What others can do to an account

An operation needs the keys that the state records for its author.  Whatever the
others do, an account keeps its balances, its keys, its name and its publications:
a run that takes any of them away has an operation of the account itself, signed
with the keys registered for it at that moment (`kept_or_signed`).  The one
exception is the account of the central authority, from whose balance new accounts
get their bonus.
-/

namespace Cybou

open Library Proc

/-! ### Authors and their keys -/

def ProtocolOperation.author : ProtocolOperation → Option AccountId
  | .accountCreate op => some op.accountId
  | .identityRotate op => some op.accountId
  | .payment op => some op.authorization.accountId
  | .systemLock op => some op.authorization.accountId
  | .nameCommit op => some op.authorization.accountId
  | .nameReveal op => some op.authorization.accountId
  | .rootPublication op => some op.authorization.accountId
  | .revokePublication op => some op.authorization.accountId
  | .storageLease op => some op.authorization.accountId
  | .storageSettlement _ => none

section

variable [Crypto]

/-- The authorization carries a signature of the key registered for its account. -/
def Authenticated (network : Hash256) (s : CybouState) (authorization : IdentityOperationAuthorization) : Prop :=
  ∃ record digest, s.identities.find authorization.accountId = some record ∧
    computeIdentityOperationDigest network authorization = some digest ∧
    verifyIdentityMessage record.authorizationKey authorization.signature digest.1 = true

/-- The operation is signed with the keys registered for its author: a rotation with the
    recovery key, the others with the authorization key.  A new account has none yet. -/
def Signed (network : Hash256) (s : CybouState) : ProtocolOperation → Prop
  | .accountCreate op => s.accounts.find? op.accountId = none
  | .identityRotate op => ∃ record, s.identities.find op.accountId = some record ∧
      RegistryMaps.rotateSignaturesValid record op network = true
  | .payment op => Authenticated network s op.authorization
  | .systemLock op => Authenticated network s op.authorization
  | .nameCommit op => Authenticated network s op.authorization
  | .nameReveal op => Authenticated network s op.authorization
  | .rootPublication op => Authenticated network s op.authorization
  | .revokePublication op => Authenticated network s op.authorization
  | .storageLease op => Authenticated network s op.authorization
  | .storageSettlement _ => True

variable {network : Hash256} {s s' : CybouState}

variable {authorization : IdentityOperationAuthorization}

theorem authenticated_of_accepted (h : (s.identities.authorizeOperation authorization network).1 = .none) :
    Authenticated network s authorization := by
  obtain ⟨e, he, heq⟩ | ⟨record, digest, hrecord, -, -, -, hdigest, hverify, -⟩ :=
    s.identities.toRegistryMaps.authorizeOperation_cases authorization network
  · have herr : (s.identities.authorizeOperation authorization network).1 = e := congrArg Prod.fst heq
    exact absurd (herr.symm.trans h) he
  · exact ⟨record, digest, hrecord, hdigest, hverify⟩

variable {ctx : BlockContext} {operation : ProtocolOperation}

theorem Dispatched.signed (h : Dispatched ctx operation s s') : Signed ctx.networkBinding s operation := by
  cases operation with
  | accountCreate op => exact AccountCreateDone.fresh h
  | identityRotate op =>
    obtain ⟨hnone, -⟩ := h
    obtain ⟨e, he, heq⟩ | ⟨record, _, _, _, _, hrecord, -, -, -, -, -, -, -, -, -, hsignatures, -⟩ :=
      s.identities.toRegistryMaps.rotateIdentity_cases op ctx.networkBinding
    · have herr : (s.identities.rotateIdentity op ctx.networkBinding).1 = e := congrArg Prod.fst heq
      exact absurd (herr.symm.trans hnone) he
    · exact ⟨record, hrecord, hsignatures⟩
  | payment op => exact authenticated_of_accepted (PaymentDone.authorized h)
  | systemLock op => exact authenticated_of_accepted (SystemLockDone.authorized h)
  | nameCommit op => exact authenticated_of_accepted (NameCommitDone.authorized h)
  | nameReveal op => exact authenticated_of_accepted (NameRevealDone.authorized h)
  | rootPublication op => exact authenticated_of_accepted (RootPublicationDone.authorized h)
  | revokePublication op => exact authenticated_of_accepted (RevokePublicationDone.authorized h)
  | storageLease op => exact authenticated_of_accepted (StorageLeaseDone.authorized h)
  | storageSettlement op => exact True.intro

/-! ### What an account keeps -/

omit [Crypto] in
/-- No balance is smaller, and the account is the same otherwise. -/
structure AccountState.Within (account account' : AccountState) : Prop where
  balance : account.balance.toNat ≤ account'.balance.toNat
  systemBalance : account.systemBalance.toNat ≤ account'.systemBalance.toNat
  onboarding : account.onboardingSystemBalance.toNat ≤ account'.onboardingSystemBalance.toNat
  creationHeight : account'.creationHeight = account.creationHeight
  creationEpoch : account'.creationEpoch = account.creationEpoch

structure AccountKept (a : AccountId) (s s' : CybouState) : Prop where
  funds : ∀ account, s.accounts.find? a = some account →
    ∃ account', s'.accounts.find? a = some account' ∧ account.Within account'
  identity : s'.identities.find a = s.identities.find a
  name : s'.names.accountNames.find? a = s.names.accountNames.find? a
  publications : ∀ id record, s.publications.find? id = some record → record.owner = a →
    s'.publications.find? id = some record

omit [Crypto] in
theorem AccountState.Within.refl (account : AccountState) : account.Within account :=
  ⟨Nat.le_refl _, Nat.le_refl _, Nat.le_refl _, rfl, rfl⟩

namespace AccountKept

variable {a id : AccountId}

theorem trans {s₁ s₂ s₃ : CybouState} (h : AccountKept a s₁ s₂) (h' : AccountKept a s₂ s₃) : AccountKept a s₁ s₃ where
  funds := by
    intro account haccount
    obtain ⟨account', haccount', hw⟩ := h.funds account haccount
    obtain ⟨account'', haccount'', hw'⟩ := h'.funds account' haccount'
    exact ⟨account'', haccount'', hw.balance.trans hw'.balance, hw.systemBalance.trans hw'.systemBalance,
      hw.onboarding.trans hw'.onboarding, hw'.creationHeight.trans hw.creationHeight,
      hw'.creationEpoch.trans hw.creationEpoch⟩
  identity := h'.identity.trans h.identity
  name := h'.name.trans h.name
  publications := by
    intro id record hrecord howner
    exact h'.publications id record (h.publications id record hrecord howner) howner

variable {s : CybouState}

theorem of_same {s' : CybouState} (haccounts : s'.accounts.find? a = s.accounts.find? a)
    (hidentity : s'.identities.find a = s.identities.find a)
    (hname : s'.names.accountNames.find? a = s.names.accountNames.find? a)
    (hpublications : s'.publications = s.publications) : AccountKept a s s' where
  funds := by
    intro account haccount
    exact ⟨account, haccounts.trans haccount, .refl account⟩
  identity := hidentity
  name := hname
  publications := by
    intro id record hrecord _
    rw [hpublications]
    exact hrecord

theorem refl (a : AccountId) (s : CybouState) : AccountKept a s s := of_same rfl rfl rfl rfl

/-! ### Moves of funds -/

variable {account : AccountState}

theorem putAccount (a : AccountId) (account : AccountState) {old : AccountState}
    (hold : s.accounts.find? id = some old) (hw : id = a → old.Within account) :
    AccountKept a s (s.putAccount id account) where
  funds := by
    intro mine hmine
    rw [find?_putAccount]
    split
    case isTrue heq =>
      subst heq
      rw [hold] at hmine
      cases hmine
      exact ⟨account, rfl, hw rfl⟩
    case isFalse => exact ⟨mine, hmine, .refl mine⟩
  identity := rfl
  name := rfl
  publications := fun _ _ hrecord _ => hrecord

theorem newAccount (s : CybouState) (account : AccountState) (hne : id ≠ a) :
    AccountKept a s (s.putAccount id account) := by
  refine of_same ?_ rfl rfl rfl
  rw [find?_putAccount, if_neg (Ne.symm hne)]

theorem putLease (a : AccountId) (s : CybouState) (id : Hash256) (lease : StorageLeaseRecord) :
    AccountKept a s (s.putLease id lease) := of_same rfl rfl rfl rfl

theorem write (s : CybouState) {ref : BalanceRef} {amount : UInt64}
    (h : ref = .account a → (ref.read s).toNat ≤ amount.toNat) : AccountKept a s (ref.write s amount) := by
  cases ref with
  | allocation key =>
    simp only [BalanceRef.write]
    split
    · exact refl a s
    · exact of_same rfl rfl rfl rfl
  | account id =>
    simp only [BalanceRef.write]
    split
    case h_1 => exact refl a s
    case h_2 old hold =>
      refine putAccount a _ hold fun heq => ?_
      subst heq
      have hle := h rfl
      simp only [BalanceRef.read, hold, Option.map_some, Option.getD_some] at hle
      exact ⟨hle, Nat.le_refl _, Nat.le_refl _, rfl, rfl⟩

variable {fee : UInt64}

theorem creditTreasury (a : AccountId) (htotal : exactTotal s + fee.toNat < 2 ^ 64) :
    AccountKept a s (s.creditTreasury fee) := by
  unfold CybouState.creditTreasury
  split
  case h_1 => exact refl a s
  case h_2 ref href =>
    refine write s fun _ => ?_
    have hread := BalanceRef.read_le_exactTotal (centralAuthorityFeeBalance_live href)
    rw [toNat_add_of_lt (by omega)]
    omega

theorem payFee (hfind : s.accounts.find? id = some account) (hle : fee ≤ account.systemBalance) (hne : id ≠ a)
    (htotal : exactTotal s < 2 ^ 64) : AccountKept a s (s.payFee id account fee) := by
  have hsum := exactTotal_debited hfind hle
  exact (newAccount s (account.debitSystem fee) hne).trans (creditTreasury a (by omega))

/-! ### Changes of other accounts -/

theorem ofAuthorize (s : CybouState) {authorization : IdentityOperationAuthorization}
    (network : Hash256) (hne : authorization.accountId ≠ a) : AccountKept a s (s.authorize authorization network) := by
  refine of_same rfl ?_ rfl rfl
  obtain ⟨e, -, heq⟩ | ⟨_, _, -, -, -, -, -, -, heq⟩ :=
    s.identities.toRegistryMaps.authorizeOperation_cases authorization network
  · exact congrArg (fun r => r.2.accounts.find? a) heq
  · have hfind := congrArg (fun r => r.2.accounts.find? a) heq
    simp only at hfind
    rw [OrdMap.find?_set_of_ne _ _ (Ne.symm hne)] at hfind
    exact hfind

theorem rotate (s : CybouState) {request : IdentityRotate} (network : Hash256)
    (hne : request.accountId ≠ a) : AccountKept a s (s.rotate request network) := by
  refine of_same rfl ?_ rfl rfl
  obtain ⟨e, -, heq⟩ | ⟨_, _, _, _, _, -, -, -, -, -, -, -, -, -, -, -, heq⟩ :=
    s.identities.toRegistryMaps.rotateIdentity_cases request network
  · exact congrArg (fun r => r.2.accounts.find? a) heq
  · have hfind := congrArg (fun r => r.2.accounts.find? a) heq
    simp only at hfind
    rw [OrdMap.find?_set_of_ne _ _ (Ne.symm hne)] at hfind
    exact hfind

theorem register (s : CybouState) {op : AccountCreateOp} (network : Hash256) (height : UInt64)
    (params : CybouProtocolParameters) (hne : op.accountId ≠ a) :
    AccountKept a s (s.registerIdentity op network height params) := by
  refine of_same rfl ?_ rfl rfl
  obtain ⟨e, -, heq⟩ | ⟨_, _, _, -, -, -, -, -, -, heq⟩ :=
    s.identities.toRegistryMaps.register_cases op network height params
  · exact congrArg (fun r => r.2.accounts.find? a) heq
  · have hfind := congrArg (fun r => r.2.accounts.find? a) heq
    simp only at hfind
    rw [OrdMap.find?_set_of_ne _ _ (Ne.symm hne)] at hfind
    exact hfind

theorem claimFor (s : CybouState) (claim : Option (IdentityKeyId × GenesisAllocation))
    (hne : id ≠ a) : AccountKept a s (s.claimFor id claim) := by
  cases claim with
  | none => exact refl a s
  | some e =>
    refine of_same rfl rfl ?_ rfl
    simp only [CybouState.claimFor, CybouState.claim]
    split
    · rfl
    · simp only [OrdMap.emplace]
      split
      · rfl
      · rw [OrdMap.find?_set_of_ne _ _ (Ne.symm hne)]

theorem unpublish {id : Hash256} {record : PublicationRecord}
    (hrecord : s.publications.find? id = some record) (hne : record.owner ≠ a) : AccountKept a s (s.unpublish id) := by
  rw [unpublish_eq]
  refine ⟨fun account haccount => ⟨account, haccount, .refl account⟩, rfl, rfl, ?_⟩
  intro id' record' hrecord' howner
  have hid : id' ≠ id := by
    rintro rfl
    rw [hrecord] at hrecord'
    cases hrecord'
    exact hne howner
  simp only [OrdMap.find?_erase, if_neg hid]
  exact hrecord'

theorem fundLease {order : LeaseOrder} {params : CybouProtocolParameters}
    {budget : AssignedStorageBudget} {s' : CybouState}
    (h : LeaseFunded order params budget account s s') (hne : order.payer ≠ a) : AccountKept a s s' := by
  rw [h.result]
  exact (newAccount s (account.debitSystem order.escrow) hne).trans (putLease a _ _ _)

theorem expireCommits (a : AccountId) (ctx : BlockContext) (s : CybouState) : AccountKept a s (expireCommits ctx s) := by
  unfold Cybou.expireCommits
  split
  · exact of_same rfl rfl rfl rfl
  · exact refl a s

end AccountKept

/-! ### Settlements -/

theorem EntryPaid.kept {entry : StorageSettlementEntry} {target : LocatedTerm} {context : EntryContext}
    {onboarding locked closedEpochCapacity : UInt64}
    (h : EntryPaid entry target context onboarding locked closedEpochCapacity s s') (a : AccountId) : AccountKept a s s' := by
  rw [h.result]
  refine (AccountKept.putAccount a _ h.provider fun _ => ?_).trans (AccountKept.putLease a _ _ _)
  refine ⟨?_, ?_, ?_, rfl, rfl⟩
  · simp only [AccountState.payOut, toNat_add_of_lt h.liquid]
    omega
  · simp only [AccountState.payOut, toNat_add_of_lt h.system]
    omega
  · simp only [AccountState.payOut, toNat_add_of_lt h.credit]
    omega

theorem TermRefunded.kept {publication : Hash256} {index : Nat} {lease : StorageLeaseRecord}
    {term : StorageFundedTerm} {payer : AccountState} {servicePayments : List StorageServicePayment}
    (h : TermRefunded publication index lease term payer servicePayments s s')
    (a : AccountId) : AccountKept a s s' := by
  have hsystem := h.system
  have hsum : (term.remainingOnboarding + term.remainingLocked).toNat =
      term.remainingOnboarding.toNat + term.remainingLocked.toNat := toNat_add_of_lt (by omega)
  rw [h.result]
  refine (AccountKept.putAccount a _ h.payerFound fun _ => ?_).trans (AccountKept.putLease a _ _ _)
  refine ⟨Nat.le_refl _, ?_, ?_, rfl, rfl⟩
  · simp only [AccountState.refund]
    rw [toNat_add_of_lt (by rw [hsum]; exact hsystem)]
    omega
  · simp only [AccountState.refund, toNat_add_of_lt h.credit]
    omega

variable {params : CybouProtocolParameters}

variable {op : StorageSettlement}

theorem PaidEntries.kept {entries : List StorageSettlementEntry} (h : PaidEntries op params s entries s')
    (a : AccountId) : AccountKept a s s' := by
  induction h with
  | done s => exact .refl a s
  | entry hstep _ ih => exact (hstep.toEntryPaid.kept a).trans ih

theorem RefundedTerms.kept {targets : List LocatedTerm} (h : RefundedTerms s targets s')
    (a : AccountId) : AccountKept a s s' := by
  induction h with
  | done s => exact .refl a s
  | term hstep _ ih =>
    cases hstep with
    | kept => exact ih
    | refunded h => exact (h.kept a).trans ih

theorem SettlementRun.kept (h : SettlementRun op params s s') (a : AccountId) : AccountKept a s s' := by
  cases h with
  | @pay paid _ hrun _ =>
    have hcursor : AccountKept a paid { paid with settlement := op.nextCursor } := .of_same rfl rfl rfl rfl
    exact ((hrun.entries.kept a).trans hcursor).trans (hrun.refunds.kept a)
  | assigned _ hrun _ =>
    rw [hrun.result]
    exact AccountKept.of_same rfl rfl rfl rfl

/-! ### Accepted operations -/

variable {a : AccountId}

theorem PaymentDone.kept {op : AuthorizedPayment}
    (h : PaymentDone op network params s s') (htotal : exactTotal s < 2 ^ 64 - 1)
    (hne : op.authorization.accountId ≠ a) : AccountKept a s s' := by
  obtain ⟨sender, recipient, hsender, hrecipient, hself, hbalance, hsystem, hcredit, rfl⟩ := h.moved
  rw [← accounts_authorize s op.authorization network] at hsender hrecipient
  have hsum := exactTotal_transfer hsender hrecipient hself hbalance hsystem hcredit
  rw [exactTotal_authorize] at hsum
  have hpaid := AccountKept.newAccount (s.authorize op.authorization network)
    ((sender.debit op.payment.amount).debitSystem params.paymentFee) hne
  have hgot := AccountKept.putAccount a (recipient.credit op.payment.amount)
    (find?_recipient hrecipient hself ((sender.debit op.payment.amount).debitSystem params.paymentFee)) fun _ =>
      ⟨by simp only [AccountState.credit, toNat_add_of_lt hcredit]; omega, Nat.le_refl _, Nat.le_refl _, rfl, rfl⟩
  exact (((AccountKept.ofAuthorize s network hne).trans hpaid).trans hgot).trans (AccountKept.creditTreasury a (by
    rw [CybouState.transfer] at hsum
    omega))

theorem SystemLockDone.kept {op : AuthorizedSystemLock}
    (h : SystemLockDone op network s s') (hne : op.authorization.accountId ≠ a) : AccountKept a s s' := by
  obtain ⟨account, -, -, -, rfl⟩ := h.moved
  exact (AccountKept.ofAuthorize s network hne).trans (AccountKept.newAccount _ _ hne)

variable {height : UInt64}

theorem NameCommitDone.kept {op : AuthorizedNameCommit} (h : NameCommitDone op network height params s s')
    (hne : op.authorization.accountId ≠ a) : AccountKept a s s' := by
  rw [h.result]
  exact (AccountKept.ofAuthorize s network hne).trans (AccountKept.of_same rfl rfl rfl rfl)

theorem NameRevealDone.kept {op : AuthorizedNameReveal} (h : NameRevealDone op network height params s s')
    (hne : op.authorization.accountId ≠ a) : AccountKept a s s' := by
  obtain ⟨_, _, -, -, -, -, -, -, rfl⟩ := h.revealed
  refine (AccountKept.ofAuthorize s network hne).trans (AccountKept.of_same rfl rfl ?_ rfl)
  exact OrdMap.find?_set_of_ne _ _ (Ne.symm hne)

theorem AccountKept.paid (network : Hash256)
    {sender : AccountState} {fee : UInt64} (hsender : s.accounts.find? authorization.accountId = some sender)
    (hle : fee ≤ sender.systemBalance) (htotal : exactTotal s < 2 ^ 64) (hne : authorization.accountId ≠ a) :
    AccountKept a s ((s.authorize authorization network).payFee authorization.accountId sender fee) :=
  (AccountKept.ofAuthorize s network hne).trans
    (AccountKept.payFee (s := s.authorize authorization network) hsender hle hne htotal)

theorem RootPublicationDone.kept {op : AuthorizedRootPublication}
    (h : RootPublicationDone op network params s s')
    (htotal : exactTotal s < 2 ^ 64 - 1) (hne : op.authorization.accountId ≠ a) : AccountKept a s s' := by
  obtain ⟨fee, _, _, sender, -, -, hsender, hdue, hresult⟩ := h.paid
  have hfee : fee ≤ sender.systemBalance := by
    rw [UInt64.le_iff_toNat_le]
    omega
  have hpaid := AccountKept.paid network hsender hfee (by omega) hne
  obtain ⟨-, rfl⟩ | ⟨-, budget, account, hfunded⟩ := hresult
  · exact hpaid
  · exact hpaid.trans (AccountKept.fundLease hfunded hne)

theorem StorageLeaseDone.kept {op : AuthorizedStorageLease}
    (h : StorageLeaseDone op network params s s') (htotal : exactTotal s < 2 ^ 64 - 1)
    (hne : op.authorization.accountId ≠ a) : AccountKept a s s' := by
  obtain ⟨sender, publication, _, _, budget, account, hsender, -, -, -, hdue, hfunded⟩ := h.funded
  have hfee : params.paymentFee ≤ sender.systemBalance := by
    rw [UInt64.le_iff_toNat_le]
    omega
  have hpaid := AccountKept.paid network hsender hfee (by omega) hne
  exact hpaid.trans (AccountKept.fundLease hfunded hne)

theorem RevokePublicationDone.kept {op : AuthorizedRevokePublication}
    (h : RevokePublicationDone op network params s s')
    (htotal : exactTotal s < 2 ^ 64 - 1) (hne : op.authorization.accountId ≠ a) : AccountKept a s s' := by
  obtain ⟨sender, record, hsender, hrecord, howner, hfee, rfl⟩ := h.closed
  have hclosed := find?_unpublished op.authorization network op.revoke.publicationId hsender
  have hgone := AccountKept.unpublish (a := a) (s := s.authorize op.authorization network) hrecord (howner ▸ hne)
  exact ((AccountKept.ofAuthorize s network hne).trans hgone).trans (AccountKept.payFee hclosed hfee hne (by
    rw [exactTotal_unpublish, exactTotal_authorize]
    omega))

theorem AccountCreateDone.kept {op : AccountCreateOp} (h : AccountCreateDone op network height params s s')
    (hne : op.accountId ≠ a) (htreasury : centralAuthorityFeeBalance s ≠ some (.account a)) :
    AccountKept a s s' := by
  have hspend : AccountKept a (s.registerIdentity op network height params)
      ((s.registerIdentity op network height params).spendTreasury
        (onboardingBonusFor params (claimableAllocation s op.authorization.recoveryRoot))) := by
    unfold CybouState.spendTreasury
    split
    case isTrue => exact .refl a _
    case isFalse hbonus =>
      obtain ⟨ref, href, -⟩ := h.treasury hbonus
      rw [treasury_register h.registered href]
      refine AccountKept.write _ fun heq => ?_
      subst heq
      exact absurd href htreasury
  have hresult := h.result
  dsimp only at hresult
  rw [hresult]
  exact (((AccountKept.register s network height params hne).trans hspend).trans (AccountKept.claimFor _ _ hne)).trans
    (AccountKept.newAccount _ _ hne)

def PaysBonus (a : AccountId) (s : CybouState) (operation : ProtocolOperation) : Prop :=
  BlockExecutor.isAccountCreate operation = true ∧ centralAuthorityFeeBalance s = some (.account a)

variable {s₁ : CybouState}

/-- An operation of another account leaves the account what it has. -/
theorem Step.kept (h : Step ctx operation s s₁ s') (htotal : exactTotal s < 2 ^ 64 - 1)
    (hauthor : operation.author ≠ some a) (hbonus : ¬PaysBonus a s operation) : AccountKept a s s' := by
  have hdone := h.done
  have hrecorded := h.recorded
  cases operation with
  | accountCreate op =>
    cases hrecorded
    exact AccountCreateDone.kept hdone (fun heq => hauthor (congrArg some heq)) fun htreasury => hbonus ⟨rfl, htreasury⟩
  | payment op =>
    cases hrecorded
    exact PaymentDone.kept hdone htotal fun heq => hauthor (congrArg some heq)
  | identityRotate op =>
    cases hrecorded
    obtain ⟨-, rfl⟩ := hdone
    exact AccountKept.rotate s _ fun heq => hauthor (congrArg some heq)
  | systemLock op =>
    cases hrecorded
    exact SystemLockDone.kept hdone fun heq => hauthor (congrArg some heq)
  | nameCommit op =>
    cases hrecorded
    exact NameCommitDone.kept hdone fun heq => hauthor (congrArg some heq)
  | nameReveal op =>
    cases hrecorded
    exact NameRevealDone.kept hdone fun heq => hauthor (congrArg some heq)
  | rootPublication op =>
    have hkept := RootPublicationDone.kept hdone htotal fun heq => hauthor (congrArg some heq)
    obtain ⟨id, -, -, hfresh, -, rfl⟩ := hrecorded
    refine hkept.trans ⟨fun account haccount => ⟨account, haccount, .refl account⟩, rfl, rfl, ?_⟩
    intro id' record hrecord _
    have hid : id' ≠ id := by
      rintro rfl
      rw [hfresh] at hrecord
      cases hrecord
    simp only [OrdMap.find?_set_of_ne _ _ hid]
    exact hrecord
  | revokePublication op =>
    cases hrecorded
    exact RevokePublicationDone.kept hdone htotal fun heq => hauthor (congrArg some heq)
  | storageLease op =>
    cases hrecorded
    exact StorageLeaseDone.kept hdone htotal fun heq => hauthor (congrArg some heq)
  | storageSettlement op => exact (h.settlement op rfl).kept a

/-! ### Runs -/

/-- Somewhere in the run the account itself acts, with the keys registered for it, or pays
    the bonus of a new account. -/
def Acts (a : AccountId) (s : CybouState) (operations : List ProtocolOperation) : Prop :=
  ∃ earlier operation later ctx s₁ s₂, operations = earlier ++ operation :: later ∧ Trace s earlier s₁ ∧
    Accepts ctx operation s₁ s₂ ∧
    (operation.author = some a ∧ Signed ctx.networkBinding s₁ operation ∨ PaysBonus a s₁ operation)

theorem Acts.cons {rest : List ProtocolOperation} (haccepts : Accepts ctx operation s s₁) (h : Acts a s₁ rest) :
    Acts a s (operation :: rest) := by
  obtain ⟨earlier, acting, later, ctx', t, t', rfl, htrace, hacts⟩ := h
  exact ⟨operation :: earlier, acting, later, ctx', t, t', rfl, .operation haccepts htrace, hacts⟩

theorem Acts.block {a : AccountId} {s : CybouState} {ctx : BlockContext} {rest : List ProtocolOperation}
    (h : Acts a (expireCommits ctx s) rest) : Acts a s rest := by
  obtain ⟨earlier, acting, later, ctx', t, t', rfl, htrace, hacts⟩ := h
  exact ⟨earlier, acting, later, ctx', t, t', rfl, .block ctx htrace, hacts⟩

theorem Trace.kept {operations : List ProtocolOperation} {total : Nat}
    (htotal : total < 2 ^ 64 - 1) (h : Trace s operations s') (hsupply : SupplyKept total s) (a : AccountId) :
    AccountKept a s s' ∨ Acts a s operations := by
  induction h with
  | refl s => exact .inl (.refl a s)
  | @operation ctx operation s s₁ s₂ rest haccepts _ ih =>
    have hexact : exactTotal s < 2 ^ 64 - 1 := hsupply.total_eq ▸ htotal
    obtain ⟨middle, hstep⟩ := haccepts.step hexact hsupply.funds
    by_cases hacts : operation.author = some a ∨ PaysBonus a s operation
    · right
      refine ⟨[], operation, rest, ctx, s, s₁, rfl, .refl s, haccepts, ?_⟩
      exact hacts.imp (fun hauthor => ⟨hauthor, hstep.done.signed⟩) id
    · rw [not_or] at hacts
      have hkept := hstep.kept hexact hacts.1 hacts.2
      obtain hrest | hrest := ih (haccepts.spends htotal hsupply).1
      · exact .inl (hkept.trans hrest)
      · exact .inr (hrest.cons haccepts)
  | block ctx _ ih =>
    obtain hrest | hrest := ih (hsupply.expireCommits ctx)
    · exact .inl ((AccountKept.expireCommits a ctx _).trans hrest)
    · exact .inr hrest.block

/-- **Nobody loses anything without a signature.**  Over every chain of executed blocks an
    account keeps its balances, its keys, its name and its publications, or the blocks hold
    an operation of the account, signed with the keys that the state of that moment registers
    for it; only the account of the central authority may also pay for new accounts. -/
theorem kept_or_signed {start s : CybouState} {operations : List ProtocolOperation}
    (hvalid : validateCybouState start = .none) (hchain : Chain start operations s) (a : AccountId) :
    AccountKept a start s ∨ Acts a start operations := by
  have hstart := validateCybouState_eq_none.mp hvalid
  exact hchain.trace.kept hstart.total ⟨rfl, hstart.fundsCovered⟩ a

end

section Sample

attribute [local instance] Crypto.sample

/-- The lock of account 1 leaves account 2 what it has. -/
theorem kept_or_signed_sampleLock : ∃ s, Chain sampleState [.systemLock sampleLock] s ∧
    AccountKept (sampleId 2) sampleState s := by
  obtain ⟨s, hs⟩ := chain_sampleLock
  refine ⟨s, hs, (kept_or_signed validateCybouState_sampleState hs (sampleId 2)).resolve_right ?_⟩
  rintro ⟨earlier, operation, later, ctx, s₁, s₂, heq, -, -, hacts⟩
  have hmem : operation ∈ [ProtocolOperation.systemLock sampleLock] := by
    rw [heq]
    exact List.mem_append_right _ List.mem_cons_self
  rw [List.mem_singleton] at hmem
  subst hmem
  obtain ⟨hauthor, -⟩ | ⟨hcreate, -⟩ := hacts
  · exact absurd hauthor (by decide)
  · cases hcreate

end Sample

end Cybou

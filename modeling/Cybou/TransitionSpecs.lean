import Cybou.StateFrame

/-! # What each transition does, one specification per transition

From a state whose exact total leaves the reserved value free, every
transition is atomic: it is refused and the state is untouched, or it succeeds
and the state it leaves is given in closed form together with the guards it
passed.  No amount wraps, and the only exception is the one `FundStorageLease`
throws when its operation id already funds the lease.
-/

namespace Cybou

open Library Proc

/-! ### Amounts -/

section Amounts

variable {σ : Type} {Q : UInt64 → σ → Prop} {E : Fault → σ → Prop} {s : σ} {a b : UInt64}

theorem wp_addAmount (h : a.toNat + b.toNat < 2 ^ 64) :
    wp (addAmount a b) Q E s ↔ Q (a + b) s := by
  rw [addAmount, if_pos h, wp_pure]

theorem wp_subAmount (h : b ≤ a) : wp (subAmount a b) Q E s ↔ Q (a - b) s := by
  rw [subAmount, if_pos h, wp_pure]

end Amounts

variable {a b : UInt64}

theorem toNat_add_of_lt (h : a.toNat + b.toNat < 2 ^ 64) :
    (a + b).toNat = a.toNat + b.toNat := by
  rw [UInt64.toNat_add, Nat.mod_eq_of_lt h]

theorem add_lt_of_not_gt (h : ¬a > UINT64_MAX - b) : a.toNat + b.toNat < 2 ^ 64 := by
  have hb : b ≤ UINT64_MAX := by
    have := b.toNat_lt
    rw [UInt64.le_iff_toNat_le, toNat_UINT64_MAX]
    omega
  rw [gt_iff_lt, UInt64.not_lt, UInt64.le_iff_toNat_le, UInt64.toNat_sub_of_le _ _ hb,
    toNat_UINT64_MAX] at h
  have := b.toNat_lt
  omega

namespace AccountState

def debit (a : AccountState) (amount : UInt64) : AccountState :=
  { a with balance := a.balance - amount }

def credit (a : AccountState) (amount : UInt64) : AccountState :=
  { a with balance := a.balance + amount }

def creditSystem (a : AccountState) (amount : UInt64) : AccountState :=
  { a with systemBalance := a.systemBalance + amount }

variable {a : AccountState} {amount : UInt64}

theorem value_debit (h : amount ≤ a.balance) :
    (a.debit amount).value + amount.toNat = a.value := by
  have hle := UInt64.le_iff_toNat_le.mp h
  simp only [value, debit, UInt64.toNat_sub_of_le _ _ h]
  omega

theorem value_credit (h : a.balance.toNat + amount.toNat < 2 ^ 64) :
    (a.credit amount).value = a.value + amount.toNat := by
  simp only [value, credit, toNat_add_of_lt h]
  omega

theorem value_creditSystem (h : a.systemBalance.toNat + amount.toNat < 2 ^ 64) :
    (a.creditSystem amount).value = a.value + amount.toNat := by
  simp only [value, creditSystem, toNat_add_of_lt h]
  omega

def debitSystem (a : AccountState) (amount : UInt64) : AccountState :=
  { a with
    onboardingSystemBalance := a.onboardingSystemBalance - min a.onboardingSystemBalance amount
    systemBalance := a.systemBalance - amount }

theorem value_debitSystem
    (h : amount ≤ a.systemBalance) : (a.debitSystem amount).value + amount.toNat = a.value := by
  have hle := UInt64.le_iff_toNat_le.mp h
  simp only [value, debitSystem, UInt64.toNat_sub_of_le _ _ h]
  omega

theorem debitSystem_covered (h : a.onboardingSystemBalance ≤ a.systemBalance) (hle : amount ≤ a.systemBalance) :
    (a.debitSystem amount).onboardingSystemBalance ≤ (a.debitSystem amount).systemBalance := by
  have hmin : min a.onboardingSystemBalance amount ≤ a.onboardingSystemBalance := by
    rw [UInt64.le_iff_toNat_le, UInt64.toNat_min]
    omega
  rw [UInt64.le_iff_toNat_le] at h ⊢
  simp only [debitSystem, UInt64.toNat_sub_of_le _ _ hmin, UInt64.toNat_sub_of_le _ _ hle,
    UInt64.toNat_min]
  omega

end AccountState

section

variable [Crypto]

/-! ### Changes of one account -/

section Accounts

variable {α : Type} {Q : α → CybouState → Prop} {E : Fault → CybouState → Prop} {s : CybouState}
  {id : AccountId} {account : AccountState} {amount : UInt64}

theorem wp_accountAt {Q : AccountState → CybouState → Prop}
    (h : s.accounts.find? id = some account) : wp (accountAt id) Q E s ↔ Q account s := by
  rw [accountAt, wp_get_bind, h]
  exact wp_pure

theorem wp_debitBalance {Q : Unit → CybouState → Prop} (h : s.accounts.find? id = some account)
    (hle : amount ≤ account.balance) :
    wp (debitBalance id amount) Q E s ↔
      Q () (s.putAccount id (account.debit amount)) := by
  rw [debitBalance, wp_bind, wp_accountAt h, wp_bind, wp_subAmount hle]
  exact wp_modify

theorem wp_creditBalance {Q : Unit → CybouState → Prop} (h : s.accounts.find? id = some account)
    (hlt : account.balance.toNat + amount.toNat < 2 ^ 64) :
    wp (creditBalance id amount) Q E s ↔
      Q () (s.putAccount id (account.credit amount)) := by
  rw [creditBalance, wp_bind, wp_accountAt h, wp_bind, wp_addAmount hlt]
  exact wp_modify

theorem wp_creditSystemBalance {Q : Unit → CybouState → Prop}
    (h : s.accounts.find? id = some account)
    (hlt : account.systemBalance.toNat + amount.toNat < 2 ^ 64) :
    wp (creditSystemBalance id amount) Q E s ↔
      Q () (s.putAccount id (account.creditSystem amount)) := by
  rw [creditSystemBalance, wp_bind, wp_accountAt h, wp_bind, wp_addAmount hlt]
  exact wp_modify

theorem wp_debitSystemBalance {Q : UInt64 → CybouState → Prop}
    (h : s.accounts.find? id = some account) (hle : amount ≤ account.systemBalance) :
    wp (debitSystemBalance id amount) Q E s ↔
      Q (min account.onboardingSystemBalance amount)
        (s.putAccount id (account.debitSystem amount)) := by
  have hmin : min account.onboardingSystemBalance amount ≤ account.onboardingSystemBalance := by
    rw [UInt64.le_iff_toNat_le, UInt64.toNat_min]
    omega
  rw [debitSystemBalance, wp_bind, wp_accountAt h, wp_bind, wp_subAmount hmin, wp_bind,
    wp_subAmount hle, wp_bind, wp_modify]
  exact wp_pure

end Accounts

@[simp] theorem find?_putAccount (s : CybouState) (id id' : AccountId) (account : AccountState) :
    (s.putAccount id account).accounts.find? id' =
      if id' = id then some account else s.accounts.find? id' := by
  by_cases h : id' = id <;> simp [CybouState.putAccount, h]

@[simp] theorem identities_putAccount (s : CybouState) (id : AccountId) (account : AccountState) :
    (s.putAccount id account).identities = s.identities := rfl

/-! ### The treasury -/

variable {s : CybouState} {key : IdentityKeyId}

theorem find?_of_findCentralAuthorityAllocation
    {a : GenesisAllocation} (h : findCentralAuthorityAllocation s = some (key, a)) :
    s.genesisAllocations.find? key = some a ∧ a.label = CENTRAL_AUTHORITY_NAME := by
  unfold findCentralAuthorityAllocation at h
  split at h
  · next e hfilter =>
    cases h
    have hmem : (key, a) ∈ s.genesisAllocations.entries.filter
        (fun e => decide (e.2.label = CENTRAL_AUTHORITY_NAME)) := by
      rw [hfilter]
      exact List.mem_singleton_self _
    obtain ⟨hentry, hlabel⟩ := List.mem_filter.mp hmem
    exact ⟨OrdMap.mem_entries_iff.mp hentry, by simpa using hlabel⟩
  · cases h

variable {ref : BalanceRef}

theorem centralAuthorityFeeBalance_cases (h : centralAuthorityFeeBalance s = some ref) :
    (∃ key a, ref = .allocation key ∧ s.genesisAllocations.find? key = some a ∧
      a.claimedBy = none ∧ a.label = CENTRAL_AUTHORITY_NAME) ∨
    ∃ id a, ref = .account id ∧ s.accounts.find? id = some a := by
  unfold centralAuthorityFeeBalance at h
  split at h
  · cases h
  next key allocation hfind =>
  obtain ⟨hkey, hlabel⟩ := find?_of_findCentralAuthorityAllocation hfind
  split at h
  · next hclaim =>
    cases h
    exact .inl ⟨key, allocation, rfl, hkey, hclaim, hlabel⟩
  next claimant hclaim =>
  split at h
  · cases h
  next haccount =>
  split at h
  · cases h
  · cases h
    push Not at haccount
    obtain ⟨a, ha⟩ := OrdMap.contains_iff.mp (eq_true_of_ne_false haccount.1)
    exact .inr ⟨claimant, a, rfl, ha⟩

theorem centralAuthorityFeeBalance_live (h : centralAuthorityFeeBalance s = some ref) : ref.Live s := by
  obtain ⟨key, a, rfl, ha, hclaim, -⟩ | ⟨id, a, rfl, ha⟩ := centralAuthorityFeeBalance_cases h
  · exact ⟨a, ha, hclaim⟩
  · exact ⟨a, ha⟩

def CybouState.creditTreasury (s : CybouState) (fee : UInt64) : CybouState :=
  match centralAuthorityFeeBalance s with
  | none => s
  | some ref => ref.write s (ref.read s + fee)

@[simp] theorem identities_write (s : CybouState) (ref : BalanceRef) (amount : UInt64) :
    (ref.write s amount).identities = s.identities := by
  cases ref with
  | allocation key =>
    simp only [BalanceRef.write]
    split <;> rfl
  | account id =>
    simp only [BalanceRef.write]
    split <;> rfl

@[simp] theorem identities_creditTreasury (s : CybouState) (fee : UInt64) :
    (s.creditTreasury fee).identities = s.identities := by
  unfold CybouState.creditTreasury
  split
  · rfl
  · exact identities_write ..

variable {fee : UInt64}

theorem canCredit_ref (h : canCreditCentralAuthorityFee s fee = true) :
    ∃ ref, centralAuthorityFeeBalance s = some ref := by
  unfold canCreditCentralAuthorityFee at h
  split at h
  · cases h
  · next ref href => exact ⟨ref, href⟩

theorem wp_creditCentralAuthorityFee {Q : Bool → CybouState → Prop} {E : Fault → CybouState → Prop}
    (href : centralAuthorityFeeBalance s = some ref) (htotal : exactTotal s + fee.toNat < 2 ^ 64) :
    wp (creditCentralAuthorityFee fee) Q E s ↔ Q true (s.creditTreasury fee) := by
  have hread := BalanceRef.read_le_exactTotal (centralAuthorityFeeBalance_live href)
  have hfee : fee ≤ UINT64_MAX := by
    rw [UInt64.le_iff_toNat_le, toNat_UINT64_MAX]
    omega
  have hcan : canCreditCentralAuthorityFee s fee = true := by
    rw [canCreditCentralAuthorityFee, href]
    rw [decide_eq_true_eq, UInt64.le_iff_toNat_le, UInt64.toNat_sub_of_le _ _ hfee,
      toNat_UINT64_MAX]
    omega
  have hadd : (ref.read s).toNat + fee.toNat < 2 ^ 64 := by omega
  rw [creditCentralAuthorityFee, wp_get_bind, hcan, if_neg (by simp), href, wp_bind,
    wp_addAmount hadd, wp_set_bind, wp_pure, CybouState.creditTreasury, href]

theorem exactTotal_creditTreasury (href : centralAuthorityFeeBalance s = some ref)
    (htotal : exactTotal s + fee.toNat < 2 ^ 64) :
    exactTotal (s.creditTreasury fee) = exactTotal s + fee.toNat := by
  have hlive := centralAuthorityFeeBalance_live href
  have hread := BalanceRef.read_le_exactTotal hlive
  have hwrite := BalanceRef.exactTotal_write hlive (ref.read s + fee)
  rw [toNat_add_of_lt (by omega)] at hwrite
  simp only [CybouState.creditTreasury, href]
  omega

theorem SameFrame.creditTreasury (s : CybouState) (fee : UInt64) :
    SameFrame s (s.creditTreasury fee) := by
  unfold CybouState.creditTreasury
  split
  · exact SameFrame.refl s
  · next ref href => exact SameFrame.write (centralAuthorityFeeBalance_live href) _

theorem OnboardingCovered.creditTreasury (h : OnboardingCovered s)
    (fee : UInt64) : OnboardingCovered (s.creditTreasury fee) := by
  unfold CybouState.creditTreasury
  split
  · exact h
  · exact h.write _ _

/-! ### Identity calls -/

def CybouState.authorize (s : CybouState) (authorization : IdentityOperationAuthorization)
    (networkBinding : Hash256) : CybouState :=
  { s with identities := (s.identities.authorizeOperation authorization networkBinding).2 }

variable {authorization : IdentityOperationAuthorization} {networkBinding : Hash256}

theorem wp_authorizeOperation {Q : IdentityRegistryError → CybouState → Prop} {E : Fault → CybouState → Prop} :
    wp (authorizeOperation authorization networkBinding) Q E s ↔
      Q (s.identities.authorizeOperation authorization networkBinding).1
        (s.authorize authorization networkBinding) := Iff.rfl

theorem authorize_of_refused (h : (s.identities.authorizeOperation authorization networkBinding).1 ≠ .none) :
    s.authorize authorization networkBinding = s := by
  obtain ⟨e, -, heq⟩ | ⟨record, digest, -, -, -, -, -, -, heq⟩ :=
    s.identities.toRegistryMaps.authorizeOperation_cases authorization networkBinding
  · have hids : (s.identities.authorizeOperation authorization networkBinding).2 = s.identities :=
      IdentityRegistry.ext_maps (congrArg Prod.snd heq)
    rw [CybouState.authorize, hids]
  · exact absurd (congrArg Prod.fst heq) h

theorem SameFrame.ofAuthorize (s : CybouState) (authorization : IdentityOperationAuthorization)
    (networkBinding : Hash256) : SameFrame s (s.authorize authorization networkBinding) :=
  SameFrame.authorize s authorization networkBinding

@[simp] theorem accounts_authorize (s : CybouState)
    (authorization : IdentityOperationAuthorization) (networkBinding : Hash256) :
    (s.authorize authorization networkBinding).accounts = s.accounts := rfl

@[simp] theorem exactTotal_authorize (s : CybouState)
    (authorization : IdentityOperationAuthorization) (networkBinding : Hash256) :
    exactTotal (s.authorize authorization networkBinding) = exactTotal s := rfl

theorem wp_authorized {ε : Type} {ok refusal : ε} {Done : CybouState → Prop} {E : Fault → CybouState → Prop}
    {f : Transition ε} (hne : refusal ≠ ok)
    (hf : (s.identities.authorizeOperation authorization networkBinding).1 = .none →
      wp f (Atomic ok s Done) E (s.authorize authorization networkBinding)) :
    wp (authorizeOperation authorization networkBinding >>= fun authorized =>
      if authorized ≠ .none then pure refusal else f) (Atomic ok s Done) E s := by
  rw [wp_bind, wp_authorizeOperation]
  refine wp_refuse (fun h => ?_) (fun h => hf (not_not.mp h))
  rw [authorize_of_refused h]
  exact Atomic.refused hne

/-! ### Fees -/

/-- The payer's system balance pays `fee` to the treasury. -/
def CybouState.payFee (s : CybouState) (id : AccountId) (account : AccountState) (fee : UInt64) :
    CybouState :=
  (s.putAccount id (account.debitSystem fee)).creditTreasury fee

section Fees

variable {s : CybouState} {id : AccountId} {account : AccountState} {fee : UInt64}
  {ref : BalanceRef} (hfind : s.accounts.find? id = some account)
  (hle : fee ≤ account.systemBalance) (href : centralAuthorityFeeBalance s = some ref)

include hfind hle in
theorem exactTotal_debited :
    exactTotal (s.putAccount id (account.debitSystem fee)) + fee.toNat = exactTotal s := by
  have hput := exactTotal_putAccount hfind (account.debitSystem fee)
  have hvalue := AccountState.value_debitSystem hle
  omega

include hfind href in
theorem treasury_debited : centralAuthorityFeeBalance (s.putAccount id (account.debitSystem fee)) =
    some ref :=
  (SameFrame.putAccount hfind _).centralAuthorityFeeBalance.trans href

include hfind hle href in
theorem wp_payFee {α : Type} {f : Transition α} {Q : α → CybouState → Prop}
    {E : Fault → CybouState → Prop} (htotal : exactTotal s < 2 ^ 64) :
    wp (debitSystemBalance id fee >>= fun _ => creditCentralAuthorityFee fee >>= fun _ => f) Q E s ↔
      wp f Q E (s.payFee id account fee) := by
  have hsum := exactTotal_debited hfind hle
  rw [wp_bind, wp_debitSystemBalance hfind hle, wp_bind,
    wp_creditCentralAuthorityFee (treasury_debited hfind href) (by omega)]
  rfl

include hfind hle href in
theorem exactTotal_payFee (htotal : exactTotal s < 2 ^ 64) :
    exactTotal (s.payFee id account fee) = exactTotal s := by
  have hsum := exactTotal_debited hfind hle
  rw [CybouState.payFee, exactTotal_creditTreasury (treasury_debited hfind href) (by omega)]
  exact hsum

variable (fee) in
include hfind in
theorem SameFrame.payFee : SameFrame s (s.payFee id account fee) :=
  (SameFrame.putAccount hfind _).trans (SameFrame.creditTreasury _ _)

include hfind hle in
theorem OnboardingCovered.payFee (h : OnboardingCovered s) :
    OnboardingCovered (s.payFee id account fee) :=
  (h.putAccount (AccountState.debitSystem_covered (h id account hfind) hle)).creditTreasury _

omit hfind in
theorem find?_payFee (s : CybouState) (id : AccountId) (account : AccountState) (fee : UInt64) :
    ∃ a, (s.payFee id account fee).accounts.find? id = some a ∧
    a.systemBalance = account.systemBalance - fee ∧
    a.onboardingSystemBalance = (account.debitSystem fee).onboardingSystemBalance := by
  unfold CybouState.payFee CybouState.creditTreasury
  split
  · exact ⟨account.debitSystem fee, by simp, rfl, rfl⟩
  · next ref href =>
    cases ref with
    | allocation key =>
      refine ⟨account.debitSystem fee, ?_, rfl, rfl⟩
      simp only [BalanceRef.write]
      split <;> simp
    | account id' =>
      simp only [BalanceRef.write]
      split
      · exact ⟨account.debitSystem fee, by simp, rfl, rfl⟩
      · next a ha =>
        by_cases hid : id = id'
        · subst hid
          simp only [find?_putAccount, if_true, Option.some.injEq] at ha
          subst ha
          exact ⟨_, (find?_putAccount ..).trans (if_pos rfl), rfl, rfl⟩
        · exact ⟨account.debitSystem fee, by simp [hid], rfl, rfl⟩

@[simp] theorem identities_payFee (s : CybouState) (id : AccountId) (account : AccountState)
    (fee : UInt64) : (s.payFee id account fee).identities = s.identities := by
  simp [CybouState.payFee]

end Fees

/-! ### Payments and locks -/

def CybouState.transfer (s : CybouState) (senderId recipientId : AccountId)
    (sender recipient : AccountState) (amount fee : UInt64) : CybouState :=
  (s.putAccount senderId ((sender.debit amount).debitSystem fee)).putAccount recipientId
    (recipient.credit amount)

section Transfer

variable {s : CybouState} {senderId recipientId : AccountId} {sender recipient : AccountState}
  {amount fee : UInt64} (hsender : s.accounts.find? senderId = some sender)
  (hrecipient : s.accounts.find? recipientId = some recipient) (hself : senderId ≠ recipientId)
  (hbalance : amount ≤ sender.balance) (hsystem : fee ≤ sender.systemBalance)
  (hcredit : recipient.balance.toNat + amount.toNat < 2 ^ 64)

include hrecipient hself in
theorem find?_recipient (a : AccountState) :
    (s.putAccount senderId a).accounts.find? recipientId = some recipient := by
  simp [Ne.symm hself, hrecipient]

variable (amount fee) in
include hsender hrecipient hself in
theorem SameFrame.transfer :
    SameFrame s (s.transfer senderId recipientId sender recipient amount fee) :=
  (SameFrame.putAccount hsender _).trans
    (SameFrame.putAccount (find?_recipient hrecipient hself _) _)

include hsender hrecipient hself hbalance hsystem hcredit in
theorem exactTotal_transfer :
    exactTotal (s.transfer senderId recipientId sender recipient amount fee) + fee.toNat =
      exactTotal s := by
  have h₁ := exactTotal_putAccount hsender ((sender.debit amount).debitSystem fee)
  have h₂ := exactTotal_putAccount (find?_recipient hrecipient hself
    ((sender.debit amount).debitSystem fee)) (recipient.credit amount)
  have h₃ : ((sender.debit amount).debitSystem fee).value + fee.toNat = (sender.debit amount).value :=
    AccountState.value_debitSystem hsystem
  have h₄ := AccountState.value_debit hbalance
  rw [AccountState.value_credit hcredit] at h₂
  rw [CybouState.transfer]
  omega

include hsender hrecipient hsystem in
theorem OnboardingCovered.transfer (h : OnboardingCovered s) :
    OnboardingCovered (s.transfer senderId recipientId sender recipient amount fee) := by
  have hdebit : ((sender.debit amount).debitSystem fee).onboardingSystemBalance ≤
      ((sender.debit amount).debitSystem fee).systemBalance :=
    AccountState.debitSystem_covered (h senderId sender hsender) hsystem
  exact (h.putAccount hdebit).putAccount (h recipientId recipient hrecipient)

end Transfer

/-- An accepted payment: value moves from the sender to the recipient and, as a
    fee, from the sender's system balance to the treasury. -/
structure PaymentDone (operation : AuthorizedPayment) (networkBinding : Hash256)
    (params : CybouProtocolParameters) (s s' : CybouState) : Prop where
  authorized :
    (s.identities.authorizeOperation operation.authorization networkBinding).1 = .none
  treasury : ∃ ref, centralAuthorityFeeBalance s = some ref
  moved : ∃ sender recipient,
    s.accounts.find? operation.authorization.accountId = some sender ∧
    s.accounts.find? operation.payment.recipient = some recipient ∧
    operation.authorization.accountId ≠ operation.payment.recipient ∧
    operation.payment.amount ≤ sender.balance ∧ params.paymentFee ≤ sender.systemBalance ∧
    recipient.balance.toNat + operation.payment.amount.toNat < 2 ^ 64 ∧
    s' = ((s.authorize operation.authorization networkBinding).transfer
      operation.authorization.accountId operation.payment.recipient sender recipient
      operation.payment.amount params.paymentFee).creditTreasury params.paymentFee

theorem putAccount_putAccount (s : CybouState) (id : AccountId) (a b : AccountState) :
    (s.putAccount id a).putAccount id b = s.putAccount id b := by
  have hset : (s.accounts.set id a).set id b = s.accounts.set id b := by
    apply OrdMap.ext_find?
    intro id'
    by_cases h : id' = id <;> simp [h]
  rw [CybouState.putAccount, CybouState.putAccount, CybouState.putAccount, hset]

/-- A payment is refused and changes nothing, or moves amount and fee. -/
theorem applyPayment_spec (operation : AuthorizedPayment) (networkBinding : Hash256)
    (params : CybouProtocolParameters) (htotal : exactTotal s < 2 ^ 64 - 1) :
    wp (applyPayment operation networkBinding params)
      (Atomic .none s (PaymentDone operation networkBinding params s)) (fun _ _ => False) s := by
  unfold applyPayment
  refine wp_guard (by decide) fun _ => ?_
  refine wp_guard (by decide) fun _ => ?_
  refine wp_guard (by decide) fun _ => ?_
  refine wp_guard (by decide) fun _ => ?_
  refine wp_guard (by decide) fun hself => ?_
  rw [wp_get_bind]
  split
  · exact Atomic.refused (by decide)
  next sender hsender =>
  split
  · exact Atomic.refused (by decide)
  next recipient hrecipient =>
  refine wp_guard (by decide) fun _ => ?_
  refine wp_guard (by decide) fun hbalance => ?_
  refine wp_guard (by decide) fun hsystem => ?_
  refine wp_guard (by decide) fun hoverflow => ?_
  refine wp_guard (by decide) fun hcan => ?_
  rw [UInt64.not_lt] at hbalance hsystem
  have hcredit := add_lt_of_not_gt hoverflow
  obtain ⟨ref, href⟩ := canCredit_ref (eq_true_of_ne_false hcan)
  rw [wp_bind, wp_addAmount hcredit]
  refine wp_guard (by decide) fun _ => ?_
  refine wp_authorized (by decide) fun hauth => ?_
  rw [← accounts_authorize s operation.authorization networkBinding] at hsender hrecipient
  have hframe := (SameFrame.ofAuthorize s operation.authorization networkBinding).trans
    (SameFrame.transfer operation.payment.amount params.paymentFee hsender hrecipient hself)
  have hsum := exactTotal_transfer hsender hrecipient hself hbalance hsystem hcredit
  rw [exactTotal_authorize] at hsum
  have hdebited : ((s.authorize operation.authorization networkBinding).putAccount
      operation.authorization.accountId (sender.debit operation.payment.amount)).accounts.find?
        operation.authorization.accountId = some (sender.debit operation.payment.amount) := by simp
  rw [wp_bind, wp_debitBalance hsender hbalance, wp_bind, wp_debitSystemBalance hdebited hsystem,
    putAccount_putAccount, wp_bind,
    wp_creditBalance (find?_recipient hrecipient hself _) hcredit, wp_bind]
  refine (wp_creditCentralAuthorityFee (hframe.centralAuthorityFeeBalance.trans href)
    (by omega)).mpr ?_
  exact Atomic.completed ⟨hauth, ⟨ref, href⟩, sender, recipient, hsender, hrecipient, hself,
    hbalance, hsystem, hcredit, rfl⟩

/-- An accepted lock: value moves from the balance to the system balance. -/
structure SystemLockDone (operation : AuthorizedSystemLock) (networkBinding : Hash256)
    (s s' : CybouState) : Prop where
  authorized :
    (s.identities.authorizeOperation operation.authorization networkBinding).1 = .none
  moved : ∃ account, s.accounts.find? operation.authorization.accountId = some account ∧
    operation.lock.amount ≤ account.balance ∧
    account.systemBalance.toNat + operation.lock.amount.toNat < 2 ^ 64 ∧
    s' = (s.authorize operation.authorization networkBinding).putAccount
      operation.authorization.accountId
      ((account.debit operation.lock.amount).creditSystem operation.lock.amount)

theorem applySystemLock_spec (operation : AuthorizedSystemLock) (networkBinding : Hash256)
    (s : CybouState) :
    wp (applySystemLock operation networkBinding)
      (Atomic .none s (SystemLockDone operation networkBinding s)) (fun _ _ => False) s := by
  unfold applySystemLock
  refine wp_guard (by decide) fun _ => ?_
  refine wp_guard (by decide) fun _ => ?_
  refine wp_guard (by decide) fun _ => ?_
  rw [wp_get_bind]
  split
  · exact Atomic.refused (by decide)
  next account haccount =>
  refine wp_guard (by decide) fun _ => ?_
  refine wp_guard (by decide) fun hbalance => ?_
  refine wp_guard (by decide) fun hoverflow => ?_
  rw [UInt64.not_lt] at hbalance
  have hcredit := add_lt_of_not_gt hoverflow
  refine wp_authorized (by decide) fun hauth => ?_
  rw [← accounts_authorize s operation.authorization networkBinding] at haccount
  have hdebited : ((s.authorize operation.authorization networkBinding).putAccount
      operation.authorization.accountId (account.debit operation.lock.amount)).accounts.find?
        operation.authorization.accountId = some (account.debit operation.lock.amount) := by simp
  rw [wp_bind, wp_debitBalance haccount hbalance, wp_bind,
    wp_creditSystemBalance hdebited hcredit, putAccount_putAccount, wp_pure]
  exact Atomic.completed ⟨hauth, account, haccount, hbalance, hcredit, rfl⟩

/-! ### Names -/

/-- An accepted commit: one more pending commitment, of an account that had
    neither a name nor a commitment. -/
structure NameCommitDone (op : AuthorizedNameCommit) (networkBinding : Hash256)
    (blockHeight : UInt64) (params : CybouProtocolParameters) (s s' : CybouState) : Prop where
  authorized : (s.identities.authorizeOperation op.authorization networkBinding).1 = .none
  commitment_ne_null : op.commit.commitment.isNull = false
  hasAccount : s.hasAccount op.authorization.accountId = true
  unnamed : s.names.accountNames.find? op.authorization.accountId = none
  uncommitted : ∀ c r, s.names.pendingCommits.find? c = some r →
    r.accountId ≠ op.authorization.accountId
  room : s.names.pendingCommits.size < params.maxPendingNameCommits.toNat
  fresh : s.names.pendingCommits.find? op.commit.commitment = none
  result : s' = { s.authorize op.authorization networkBinding with
    names := { s.names with
      pendingCommits := s.names.pendingCommits.set op.commit.commitment
        { accountId := op.authorization.accountId, commitHeight := blockHeight } } }

theorem commitment_ne_null_of_payloadCommitment {payload : NameCommitPayload}
    {commitment : IdentityKeyId}
    (h : computeNameCommitPayloadCommitment payload = some commitment) :
    payload.commitment.isNull = false := by
  obtain ⟨bytes, hbytes, -⟩ := Option.bind_eq_some_iff.mp h
  unfold serializeNameCommitPayload at hbytes
  split at hbytes
  · cases hbytes
  · next hnull => exact eq_false_of_ne_true hnull

theorem applyNameCommit_spec (op : AuthorizedNameCommit) (networkBinding : Hash256)
    (blockHeight : UInt64) (params : CybouProtocolParameters) (s : CybouState) :
    wp (applyNameCommit op networkBinding blockHeight params)
      (Atomic .none s (NameCommitDone op networkBinding blockHeight params s))
      (fun _ _ => False) s := by
  unfold applyNameCommit
  refine wp_guard (by decide) fun _ => ?_
  refine wp_guard (by decide) fun hpayload => ?_
  rw [wp_get_bind]
  refine wp_guard (by decide) fun haccount => ?_
  refine wp_guard (by decide) fun hnamed => ?_
  refine wp_guard (by decide) fun hpending => ?_
  refine wp_guard (by decide) fun hroom => ?_
  refine wp_guard (by decide) fun hfresh => ?_
  refine wp_authorized (by decide) fun hauth => ?_
  have hfresh := OrdMap.contains_eq_false_iff.mp (eq_false_of_ne_true hfresh)
  rw [wp_bind, wp_modify, wp_pure]
  refine Atomic.completed ⟨hauth, commitment_ne_null_of_payloadCommitment (not_not.mp hpayload),
    eq_true_of_ne_false haccount,
    OrdMap.contains_eq_false_iff.mp (eq_false_of_ne_true hnamed), ?_, not_le.mp hroom, hfresh, ?_⟩
  · intro c r hr heq
    refine hpending (List.any_eq_true.mpr ⟨(c, r), OrdMap.mem_entries_iff.mpr hr, ?_⟩)
    exact decide_eq_true heq
  · simp only [CybouState.authorize, OrdMap.emplace_of_none hfresh]

/-- An accepted reveal: the pending commitment becomes a name. -/
structure NameRevealDone (op : AuthorizedNameReveal) (networkBinding : Hash256)
    (blockHeight : UInt64) (params : CybouProtocolParameters) (s s' : CybouState) : Prop where
  authorized : (s.identities.authorizeOperation op.authorization networkBinding).1 = .none
  label : validateNameLabel op.reveal.label = .none
  hasAccount : s.hasAccount op.authorization.accountId = true
  unnamed : s.names.accountNames.find? op.authorization.accountId = none
  free : s.names.names.find? op.reveal.label = none
  unreserved : ∀ key a, s.genesisAllocations.find? key = some a → a.label ≠ op.reveal.label
  revealed : ∃ commitment record, s.names.pendingCommits.find? commitment = some record ∧
    commitment = computeNameCommitment networkBinding op.authorization.accountId op.reveal.label
      op.reveal.salt ∧ record.accountId = op.authorization.accountId ∧
    record.commitHeight + params.nameCommitMinDepth ≤ blockHeight ∧
    blockHeight ≤ record.commitHeight + params.nameCommitMaxLifetime ∧
    nameWorkAccepted op networkBinding blockHeight params = true ∧
    s' = { s.authorize op.authorization networkBinding with
      names :=
        { names := s.names.names.set op.reveal.label op.authorization.accountId
          accountNames := s.names.accountNames.set op.authorization.accountId op.reveal.label
          pendingCommits := s.names.pendingCommits.erase commitment } }

/-- A reveal is refused and changes nothing, or takes the commit for the name. -/
theorem applyNameReveal_spec (op : AuthorizedNameReveal) (networkBinding : Hash256)
    (blockHeight : UInt64) (params : CybouProtocolParameters) (s : CybouState) :
    wp (applyNameReveal op networkBinding blockHeight params)
      (Atomic .none s (NameRevealDone op networkBinding blockHeight params s))
      (fun _ _ => False) s := by
  unfold applyNameReveal
  refine wp_guard (by decide) fun _ => ?_
  refine wp_guard (by decide) fun _ => ?_
  refine wp_guard (by decide) fun hlabel => ?_
  rw [wp_get_bind]
  refine wp_guard (by decide) fun haccount => ?_
  refine wp_guard (by decide) fun hnamed => ?_
  refine wp_guard (by decide) fun htaken => ?_
  refine wp_guard (by decide) fun _ => ?_
  split
  · exact Atomic.refused (by decide)
  next record hrecord =>
  refine wp_guard (by decide) fun hmatch => ?_
  refine wp_guard (by decide) fun hdepth => ?_
  refine wp_guard (by decide) fun hexpired => ?_
  refine wp_guard (by decide) fun hwork => ?_
  refine wp_authorized (by decide) fun hauth => ?_
  push Not at htaken
  have hfree := OrdMap.contains_eq_false_iff.mp (eq_false_of_ne_true htaken.1)
  have hunnamed := OrdMap.contains_eq_false_iff.mp (eq_false_of_ne_true hnamed)
  rw [wp_bind, wp_modify, wp_pure]
  refine Atomic.completed ⟨hauth, not_not.mp hlabel, eq_true_of_ne_false haccount, hunnamed, hfree,
    ?_, _, record, hrecord, rfl, not_not.mp hmatch, UInt64.not_lt.mp hdepth,
    UInt64.not_lt.mp hexpired, eq_true_of_ne_false hwork, ?_⟩
  · intro key a ha heq
    refine htaken.2 (List.any_eq_true.mpr ⟨(key, a), OrdMap.mem_entries_iff.mpr ha, ?_⟩)
    exact decide_eq_true heq
  · simp only [CybouState.authorize, OrdMap.emplace_of_none hfree, OrdMap.emplace_of_none hunnamed]

/-! ### Identities and accounts -/

def CybouState.rotate (s : CybouState) (request : IdentityRotate) (networkBinding : Hash256) :
    CybouState :=
  { s with identities := (s.identities.rotateIdentity request networkBinding).2 }

theorem wp_rotateIdentity {request : IdentityRotate}
    {Q : IdentityRegistryError → CybouState → Prop} {E : Fault → CybouState → Prop} :
    wp (rotateIdentity request networkBinding) Q E s ↔
      Q (s.identities.rotateIdentity request networkBinding).1 (s.rotate request networkBinding) :=
  Iff.rfl

theorem rotateIdentity_spec (request : IdentityRotate) (networkBinding : Hash256)
    (s : CybouState) :
    wp (rotateIdentity request networkBinding)
      (Atomic .none s fun s' => (s.identities.rotateIdentity request networkBinding).1 = .none ∧
        s' = s.rotate request networkBinding) (fun _ _ => False) s := by
  rw [wp_rotateIdentity]
  obtain ⟨e, he, heq⟩ | ⟨_, _, _, _, _, _, _, _, _, _, _, _, _, _, _, _, heq⟩ :=
    s.identities.toRegistryMaps.rotateIdentity_cases request networkBinding
  · have hids : (s.identities.rotateIdentity request networkBinding).2 = s.identities :=
      IdentityRegistry.ext_maps (congrArg Prod.snd heq)
    have herr : (s.identities.rotateIdentity request networkBinding).1 = e := congrArg Prod.fst heq
    rw [CybouState.rotate, hids, herr]
    exact Atomic.refused he
  · have herr : (s.identities.rotateIdentity request networkBinding).1 = .none :=
      congrArg Prod.fst heq
    rw [herr]
    exact Atomic.completed ⟨rfl, rfl⟩

def CybouState.registerIdentity (s : CybouState) (op : AccountCreateOp) (networkBinding : Hash256)
    (blockHeight : UInt64) (params : CybouProtocolParameters) : CybouState :=
  { s with identities := (s.identities.register op networkBinding blockHeight params).2 }

def CybouState.spendTreasury (s : CybouState) (bonus : UInt64) : CybouState :=
  if bonus = 0 then s
  else
    match centralAuthorityFeeBalance s with
    | none => s
    | some ref => ref.write s (ref.read s - bonus)

def CybouState.claimFor (s : CybouState) (accountId : AccountId) :
    Option (IdentityKeyId × GenesisAllocation) → CybouState
  | none => s
  | some (key, allocation) => s.claim key allocation accountId

/-- The bonus an `AccountCreate` is entitled to. -/
def onboardingBonusFor (params : CybouProtocolParameters)
    (claim : Option (IdentityKeyId × GenesisAllocation)) : UInt64 :=
  if (claim.any fun e => decide (e.2.label = CENTRAL_AUTHORITY_NAME)) = true then 0
  else params.onboardingBonus

def openedAccount (params : CybouProtocolParameters) (blockHeight : UInt64)
    (claim : Option (IdentityKeyId × GenesisAllocation)) : AccountState :=
  { balance := (claim.map (·.2.balance)).getD 0
    systemBalance := onboardingBonusFor params claim
    onboardingSystemBalance := onboardingBonusFor params claim
    creationHeight := blockHeight
    creationEpoch := epochForHeight blockHeight params }

/-- An accepted `AccountCreate`: an identity, a bonus out of the treasury, the
    allocation of the recovery key if it is unclaimed, and the account. -/
structure AccountCreateDone (op : AccountCreateOp) (networkBinding : Hash256)
    (blockHeight : UInt64) (params : CybouProtocolParameters) (s s' : CybouState) : Prop where
  room : s.accounts.size < MAX_IDENTITY_REGISTRY_ACCOUNTS
  fresh : s.accounts.find? op.accountId = none
  registered : (s.identities.register op networkBinding blockHeight params).1 = .none
  treasury : onboardingBonusFor params (claimableAllocation s op.authorization.recoveryRoot) ≠ 0 →
    ∃ ref, centralAuthorityFeeBalance s = some ref ∧
      onboardingBonusFor params (claimableAllocation s op.authorization.recoveryRoot) ≤ ref.read s
  result :
    let claim := claimableAllocation s op.authorization.recoveryRoot
    s' = (((s.registerIdentity op networkBinding blockHeight params).spendTreasury
      (onboardingBonusFor params claim)).claimFor op.accountId claim).putAccount
        op.accountId (openedAccount params blockHeight claim)

variable {allocation : GenesisAllocation}

theorem claimableAllocation_some {recoveryRoot : IdentityHybridPublicKey}
    (h : claimableAllocation s recoveryRoot = some (key, allocation)) :
    computeRecoveryKeyId recoveryRoot = some key ∧
      s.genesisAllocations.find? key = some allocation ∧ allocation.claimedBy = none := by
  obtain ⟨key', hkey, h⟩ := Option.bind_eq_some_iff.mp h
  obtain ⟨allocation', hfind, h⟩ := Option.bind_eq_some_iff.mp h
  split at h
  · cases h
  · next hclaim =>
    cases h
    exact ⟨hkey, hfind, by simpa using hclaim⟩

variable {params : CybouProtocolParameters}

theorem wp_registerIdentity {op : AccountCreateOp} {blockHeight : UInt64}
    {Q : IdentityRegistryError → CybouState → Prop} {E : Fault → CybouState → Prop} :
    wp (registerIdentity op networkBinding blockHeight params) Q E s ↔
      Q (s.identities.register op networkBinding blockHeight params).1
        (s.registerIdentity op networkBinding blockHeight params) := Iff.rfl

section Register

variable {s : CybouState} {op : AccountCreateOp} {networkBinding : Hash256} {blockHeight : UInt64}
  {params : CybouProtocolParameters}

theorem registerIdentity_of_refused
    (h : (s.identities.register op networkBinding blockHeight params).1 ≠ .none) :
    s.registerIdentity op networkBinding blockHeight params = s := by
  obtain ⟨e, -, heq⟩ | ⟨_, _, _, -, -, -, -, -, -, heq⟩ :=
    s.identities.toRegistryMaps.register_cases op networkBinding blockHeight params
  · have hids : (s.identities.register op networkBinding blockHeight params).2 = s.identities :=
      IdentityRegistry.ext_maps (congrArg Prod.snd heq)
    rw [CybouState.registerIdentity, hids]
  · exact absurd (congrArg Prod.fst heq) h

theorem accounts_register
    (h : (s.identities.register op networkBinding blockHeight params).1 = .none) :
    s.identities.find op.accountId = none ∧
      ∃ record, (s.registerIdentity op networkBinding blockHeight params).identities.accounts =
        s.identities.accounts.set op.accountId record := by
  obtain ⟨e, he, heq⟩ | ⟨_, _, packageId, -, hfresh, -, -, -, -, heq⟩ :=
    s.identities.toRegistryMaps.register_cases op networkBinding blockHeight params
  · have herr : (s.identities.register op networkBinding blockHeight params).1 = e :=
      congrArg Prod.fst heq
    exact absurd (herr.symm.trans h) he
  · exact ⟨hfresh, _, congrArg (fun r => r.2.accounts) heq⟩

theorem find_register_ne_none
    (h : (s.identities.register op networkBinding blockHeight params).1 = .none) {id : AccountId}
    (hid : s.identities.find id ≠ none) :
    (s.registerIdentity op networkBinding blockHeight params).identities.find id ≠ none := by
  obtain ⟨-, record, hmap⟩ := accounts_register h
  rw [IdentityRegistry.find, hmap, OrdMap.find?_set]
  split
  · simp
  · exact hid

theorem treasury_register
    (h : (s.identities.register op networkBinding blockHeight params).1 = .none) {ref : BalanceRef}
    (href : centralAuthorityFeeBalance s = some ref) :
    centralAuthorityFeeBalance (s.registerIdentity op networkBinding blockHeight params) =
      some ref := by
  unfold centralAuthorityFeeBalance at href ⊢
  have hfind : findCentralAuthorityAllocation (s.registerIdentity op networkBinding blockHeight
    params) = findCentralAuthorityAllocation s := rfl
  rw [hfind]
  split at href
  · cases href
  next key allocation hsome =>
  split at href
  · exact href
  next claimant hclaim =>
  split at href
  · cases href
  next hclaimant =>
  push Not at hclaimant
  rw [if_neg]
  · exact href
  · push Not
    exact ⟨hclaimant.1, find_register_ne_none h hclaimant.2⟩

end Register

variable {bonus : UInt64}

theorem wp_debitTreasury {Q : Unit → CybouState → Prop} {E : Fault → CybouState → Prop}
    (h : bonus ≠ 0 → ∃ ref, centralAuthorityFeeBalance s = some ref ∧ bonus ≤ ref.read s) :
    wp (debitTreasury bonus) Q E s ↔ Q () (s.spendTreasury bonus) := by
  rw [debitTreasury, wp_get_bind, CybouState.spendTreasury]
  by_cases hzero : bonus = 0
  · rw [if_pos hzero, if_pos hzero, wp_pure]
  · obtain ⟨ref, href, hle⟩ := h hzero
    rw [if_neg hzero, if_neg hzero, href, wp_bind, wp_subAmount hle, wp_set]

theorem exactTotal_spendTreasury
    (h : bonus ≠ 0 → ∃ ref, centralAuthorityFeeBalance s = some ref ∧ bonus ≤ ref.read s) :
    exactTotal (s.spendTreasury bonus) + bonus.toNat = exactTotal s := by
  rw [CybouState.spendTreasury]
  by_cases hzero : bonus = 0
  · rw [if_pos hzero, hzero]
    rfl
  · obtain ⟨ref, href, hle⟩ := h hzero
    have hwrite := BalanceRef.exactTotal_write (centralAuthorityFeeBalance_live href)
      (ref.read s - bonus)
    have hnat := UInt64.le_iff_toNat_le.mp hle
    rw [UInt64.toNat_sub_of_le _ _ hle] at hwrite
    simp only [if_neg hzero, href]
    omega

theorem SameFrame.spendTreasury (s : CybouState) (bonus : UInt64) :
    SameFrame s (s.spendTreasury bonus) := by
  unfold CybouState.spendTreasury
  split
  · exact SameFrame.refl s
  · split
    · exact SameFrame.refl s
    · next ref href => exact SameFrame.write (centralAuthorityFeeBalance_live href) _

theorem OnboardingCovered.spendTreasury (h : OnboardingCovered s)
    (bonus : UInt64) : OnboardingCovered (s.spendTreasury bonus) := by
  unfold CybouState.spendTreasury
  split
  · exact h
  · split
    · exact h
    · exact h.write _ _

theorem find?_spendTreasury_claim (hfind : s.genesisAllocations.find? key = some allocation) :
    (s.spendTreasury (onboardingBonusFor params (some (key, allocation)))).genesisAllocations.find?
      key = some allocation := by
  unfold CybouState.spendTreasury
  split
  · exact hfind
  next hbonus =>
  split
  · exact hfind
  next ref href =>
  have hlabel : allocation.label ≠ CENTRAL_AUTHORITY_NAME := by
    intro heq
    exact hbonus (by simp [onboardingBonusFor, heq])
  obtain ⟨key', a, rfl, ha, -, hcentral⟩ | ⟨id, a, rfl, ha⟩ := centralAuthorityFeeBalance_cases href
  · have hne : key ≠ key' := by
      rintro rfl
      rw [hfind] at ha
      cases ha
      exact hlabel hcentral
    simp [BalanceRef.write, ha, hne, hfind]
  · simpa [BalanceRef.write, ha, CybouState.putAccount] using hfind

theorem wp_claimAllocation {accountId : AccountId}
    {claim : Option (IdentityKeyId × GenesisAllocation)} {Q : UInt64 → CybouState → Prop}
    {E : Fault → CybouState → Prop} (h : ∀ e ∈ claim, s.genesisAllocations.find? e.1 = some e.2) :
    wp (claimAllocation accountId claim) Q E s ↔
      Q ((claim.map (·.2.balance)).getD 0) (s.claimFor accountId claim) := by
  cases claim with
  | none => exact Iff.rfl
  | some e =>
    have hfind := h e rfl
    simp only [claimAllocation, wp_get_bind, hfind, wp_set_bind, wp_pure]
    rfl

variable {id : AccountId}

theorem accounts_spendTreasury_find? (bonus : UInt64)
    (h : s.accounts.find? id = none) : (s.spendTreasury bonus).accounts.find? id = none := by
  have hframe := congrFun (SameFrame.spendTreasury s bonus).accounts id
  rw [← OrdMap.contains_eq_false_iff] at h ⊢
  exact hframe.trans h

theorem accounts_claimFor_find? (accountId : AccountId)
    (claim : Option (IdentityKeyId × GenesisAllocation)) (h : s.accounts.find? id = none) :
    (s.claimFor accountId claim).accounts.find? id = none := by
  cases claim <;> exact h

/-- A creation is refused and changes nothing, or opens the account with its claim. -/
theorem applyAccountCreate_spec (op : AccountCreateOp) (networkBinding : Hash256)
    (blockHeight : UInt64) (params : CybouProtocolParameters) (s : CybouState) :
    wp (applyAccountCreate op networkBinding blockHeight params)
      (Atomic .none s (AccountCreateDone op networkBinding blockHeight params s))
      (fun _ _ => False) s := by
  unfold applyAccountCreate
  rw [wp_get_bind]
  refine wp_guard (by decide) fun _ => ?_
  refine wp_guard (by decide) fun _ => ?_
  refine wp_guard (by decide) fun hroom => ?_
  refine wp_guard (by decide) fun hexists => ?_
  refine wp_guard (by decide) fun htreasury => ?_
  have hfresh := OrdMap.contains_eq_false_iff.mp (eq_false_of_ne_true hexists)
  rw [wp_bind, wp_registerIdentity]
  refine wp_refuse (fun hrefused => ?_) fun hregister => ?_
  · rw [registerIdentity_of_refused hrefused]
    apply Atomic.refused
    split
    · decide
    · split <;> decide
  have hbonus : onboardingBonusFor params (claimableAllocation s op.authorization.recoveryRoot) ≠ 0 →
      ∃ ref, centralAuthorityFeeBalance s = some ref ∧
        onboardingBonusFor params (claimableAllocation s op.authorization.recoveryRoot) ≤
          ref.read s := by
    intro hne
    have hall : ((centralAuthorityFeeBalance s).all fun ref => decide (ref.read s <
        onboardingBonusFor params (claimableAllocation s op.authorization.recoveryRoot))) ≠ true :=
      fun h => htreasury ⟨hne, h⟩
    cases href : centralAuthorityFeeBalance s with
    | none => simp [href] at hall
    | some ref => exact ⟨ref, rfl, by simpa [href, UInt64.not_lt] using hall⟩
  have hspend := fun hne => (hbonus hne).imp fun ref h => h.imp_left
    (treasury_register (not_not.mp hregister))
  rw [wp_bind]
  refine (wp_debitTreasury hspend).mpr ?_
  rw [wp_bind]
  refine (wp_claimAllocation ?_).mpr ?_
  · intro e he
    have hsome : claimableAllocation s op.authorization.recoveryRoot = some (e.1, e.2) := he
    rw [hsome]
    exact find?_spendTreasury_claim (claimableAllocation_some hsome).2.1
  rw [wp_bind, wp_modify, wp_pure]
  refine Atomic.completed ⟨not_le.mp hroom, hfresh, not_not.mp hregister, hbonus, ?_⟩
  have hregistered :
      (s.registerIdentity op networkBinding blockHeight params).accounts.find? op.accountId = none :=
    hfresh
  have hspent := accounts_spendTreasury_find?
    (onboardingBonusFor params (claimableAllocation s op.authorization.recoveryRoot)) hregistered
  rw [OrdMap.emplace_of_none (accounts_claimFor_find? op.accountId
    (claimableAllocation s op.authorization.recoveryRoot) hspent)]
  rfl

end

end Cybou

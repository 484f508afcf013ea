import Cybou.AssignmentDraw
import Cybou.ExecutedBlock

/-! # The preview of a settlement against its execution

`CheckStorageSettlementInputs`, `ApplyStorageSettlement`.

A preview of `PREPARE` or `ACTIVATE` stops where the execution begins to record:
it has no operation id, closes no epoch and validates no state.  Both go through
the same checks (`AssignmentFront`, `PrepareChecked`, `ActivateChecked`), and a
term that passed them is valid with what is recorded (`termValid_prepared`,
`termValid_activated`).  Two things only are left to the validation of the whole
state: that the operation id is new, and that the record has room (`Recordable`).
-/

namespace Cybou

open Library Proc

section

variable [Crypto]

/-! ### The common front -/

def Assigns (op : StorageSettlement) (network : Hash256) (height : UInt64) (parent : Hash256) (apply : Bool)
    (s : CybouState) (target : LocatedTerm) (term : StorageFundedTerm) : Prop :=
  ∃ declaration publication, AssignmentFront op network height s target declaration publication ∧
    assignedTerm op s network height parent (recordedId op apply) publication target declaration = .ok (.ok term)

variable {op : StorageSettlement} {s : CybouState} {parent network operationId : Hash256}
  {height : UInt64} {publication : PublicationRecord}
  {declaration : Option StorageAssignmentDeclaration}

theorem assignedTerm_error {operationId : Option Hash256} {target : LocatedTerm} {e : StorageSettlementError}
    (h : assignedTerm op s network height parent operationId publication target declaration = .ok (.error e)) :
    e ≠ .none := by
  cases declaration with
  | none =>
    rw [assignedTerm, Except.ok.injEq] at h
    exact prepareTerm_error h
  | some d =>
    have hspec := activateTerm_allocations op network height parent operationId publication target d
    rw [assignedTerm] at h
    rw [h] at hspec
    exact hspec

/-- **When `ApplyAssignmentInputs` does not refuse.** -/
theorem applyAssignmentInputs_iff (op : StorageSettlement) (network : Hash256) (height : UInt64) (parent : Hash256)
    (apply : Bool) (s : CybouState) (hid : apply = true → computeOperationId (.storageSettlement op) ≠ none) :
    wp (applyAssignmentInputs op network height parent apply)
      (fun r s' => (r = .none ↔ ∃ target term, Assigns op network height parent apply s target term) ∧
        ∀ target term, Assigns op network height parent apply s target term →
          s' = if apply then s.recordTerm op target term else s)
      (fun _ _ => ¬∃ target term, Assigns op network height parent apply s target term) s := by
  have hrefused : ∀ (r : StorageSettlementError) (s' : CybouState), r ≠ .none →
      (¬∃ target term, Assigns op network height parent apply s target term) →
      (r = .none ↔ ∃ target term, Assigns op network height parent apply s target term) ∧
        ∀ target term, Assigns op network height parent apply s target term →
          s' = if apply then s.recordTerm op target term else s :=
    fun r s' hr hnot => ⟨⟨fun heq => absurd heq hr, fun h => absurd h hnot⟩,
      fun target term h => absurd ⟨target, term, h⟩ hnot⟩
  refine wp_applyAssignmentInputs (fun r hr hnot => hrefused r s hr ?_) fun target declaration publication hfront _ => ?_
  · rintro ⟨target, term, declaration, publication, hfront, -⟩
    obtain ⟨happly, hnone⟩ := hnot ⟨target, declaration, publication, hfront⟩
    exact hid happly hnone
  have hassigns : ∀ target' term, Assigns op network height parent apply s target' term → target' = target ∧
      assignedTerm op s network height parent (recordedId op apply) publication target declaration =
        .ok (.ok term) := by
    rintro target' term ⟨declaration', publication', hfront', hterm⟩
    obtain ⟨rfl, rfl, rfl⟩ := hfront.unique hfront'
    exact ⟨rfl, hterm⟩
  cases hresult : assignedTerm op s network height parent (recordedId op apply) publication target declaration with
  | error fault =>
    rintro ⟨target', term, h⟩
    cases hresult.symm.trans (hassigns _ _ h).2
  | ok outcome =>
    cases outcome with
    | error e =>
      refine hrefused _ _ (assignedTerm_error hresult) ?_
      rintro ⟨target', term, h⟩
      cases hresult.symm.trans (hassigns _ _ h).2
    | ok term =>
      refine ⟨⟨fun _ => ⟨target, term, declaration, publication, hfront, hresult⟩, fun _ => rfl⟩, fun target' term' h => ?_⟩
      obtain ⟨rfl, hterm⟩ := hassigns _ _ h
      cases hresult.symm.trans hterm
      rfl

/-! ### The checks of an action -/

structure PrepareChecked (op : StorageSettlement) (s : CybouState) (network : Hash256) (height : UInt64)
    (target : LocatedTerm) (eligible : List StorageAcceptedBinding) : Prop where
  replicas : target.lease.replicas ≤ 2
  epoch : target.term.nextAssignmentEpoch ≤ op.assignmentEpoch
  last : op.assignmentEpoch ≠ UINT64_MAX
  accepted : acceptEligible s network height target.lease.payer op.eligible = .ok eligible
  accounts : target.lease.replicas.toNat ≤ (eligible.map (·.payoutAccount)).dedup.length

def StorageFundedTerm.declare (term : StorageFundedTerm) (op : StorageSettlement) (height : UInt64)
    (eligible : List StorageAcceptedBinding) (operationId : Hash256) : StorageFundedTerm :=
  { term with
    declarations := term.declarations ++ [{ operationId, epoch := op.assignmentEpoch, height, eligible }]
    nextAssignmentEpoch := op.assignmentEpoch + 1 }

/-- `PREPARE` gives a term exactly when its checks pass. -/
theorem prepareTerm_iff {op : StorageSettlement} {s : CybouState} {network : Hash256} {height : UInt64}
    {operationId : Option Hash256} {target : LocatedTerm} {term : StorageFundedTerm} :
    prepareTerm op s network height operationId target = .ok term ↔
      ∃ eligible, PrepareChecked op s network height target eligible ∧
        (operationId.map (target.term.declare op height eligible)).getD target.term = term := by
  unfold prepareTerm
  constructor
  · intro h
    split at h
    · cases h
    next hguard =>
    push Not at hguard
    cases haccepted : acceptEligible s network height target.lease.payer op.eligible with
    | error e =>
      rw [haccepted] at h
      cases h
    | ok eligible =>
      rw [haccepted] at h
      simp only [bind, Except.bind] at h
      split at h
      · cases h
      next haccounts =>
      refine ⟨eligible, ⟨hguard.1, UInt64.not_lt.mp hguard.2.1, hguard.2.2, haccepted,
        Nat.not_lt.mp haccounts⟩, ?_⟩
      cases operationId with
      | none =>
        cases h
        rfl
      | some operationId =>
        cases h
        rfl
  · rintro ⟨eligible, hchecked, rfl⟩
    rw [if_neg, hchecked.accepted]
    · simp only [bind, Except.bind]
      rw [if_neg (Nat.not_lt.mpr hchecked.accounts)]
      cases operationId <;> rfl
    · rintro (hreplicas | hepoch | hlast)
      · exact UInt8.not_lt.mpr hchecked.replicas hreplicas
      · exact UInt64.not_lt.mpr hchecked.epoch hepoch
      · exact hchecked.last hlast

structure ActivateChecked (op : StorageSettlement) (network : Hash256) (height : UInt64) (parent : Hash256)
    (publication : PublicationRecord) (target : LocatedTerm) (declaration : StorageAssignmentDeclaration)
    (counts : OrdMap ServiceKey UInt32) : Prop where
  newest : target.term.declarations.getLast?.map (·.operationId) = some op.preparationId
  seed : parent.isNull = false
  early : declaration.height ≤ UINT64_MAX - 2
  height : height = declaration.height + 2
  epoch : ∀ last ∈ target.term.assignments.getLast?, last.epoch < declaration.epoch
  units : op.manifest.length = target.lease.units.toNat
  chunks : op.manifest.length = publication.chunkCount.toNat
  root : chunkAuthorizationRoot op.manifest = some publication.chunkAuthorizationRoot
  counted : assignChunks (assignmentContext network parent target declaration) (declaredProviders declaration)
    op.manifest ∅ = .ok (.ok counts)

def StorageFundedTerm.activate (term : StorageFundedTerm) (op : StorageSettlement) (parent : Hash256)
    (leaseEnd : UInt64) (declaration : StorageAssignmentDeclaration) (counts : OrdMap ServiceKey UInt32)
    (operationId : Hash256) : Option StorageFundedTerm :=
  (closeEpochs term op.period leaseEnd term.servicePayments).map fun servicePayments =>
    { term with
      servicePayments
      assignments := term.assignments ++
        [{ operationId, preparationId := op.preparationId, seed := parent, epoch := declaration.epoch
           effectivePeriod := op.period, allocations := countedAllocations counts }] }

/-- `ACTIVATE` gives a term exactly when its checks pass. -/
theorem activateTerm_iff {op : StorageSettlement} {network : Hash256} {height : UInt64} {parent : Hash256}
    {operationId : Option Hash256} {publication : PublicationRecord} {target : LocatedTerm}
    {declaration : StorageAssignmentDeclaration} {term : StorageFundedTerm} :
    activateTerm op network height parent operationId publication target declaration = .ok (.ok term) ↔
      ∃ counts, ActivateChecked op network height parent publication target declaration counts ∧
        (match operationId with
          | none => some target.term
          | some operationId =>
            target.term.activate op parent target.lease.endPeriod declaration counts operationId) = some term := by
  unfold activateTerm
  dsimp only
  constructor
  · intro h
    split at h
    · cases h
    next hheight =>
    split at h
    · cases h
    next hepoch =>
    split at h
    · cases h
    next hunits =>
    split at h
    · cases h
    next hroot =>
    push Not at hheight hunits
    have hnewer : ∀ last ∈ target.term.assignments.getLast?, last.epoch < declaration.epoch := by
      intro last hlast
      refine UInt64.not_le.mp fun hle => hepoch ?_
      rw [Option.mem_def.mp hlast, Option.any_some]
      exact decide_eq_true hle
    cases hcounts : assignChunks (assignmentContext network parent target declaration)
      (declaredProviders declaration) op.manifest ∅ with
    | error fault =>
      rw [hcounts] at h
      cases h
    | ok result =>
      rw [hcounts] at h
      simp only [bind, Except.bind] at h
      cases result with
      | error e => cases h
      | ok counts =>
        refine ⟨counts, ⟨hheight.1, Bool.eq_false_of_not_eq_true hheight.2.1, UInt64.not_lt.mp hheight.2.2.1,
          hheight.2.2.2, hnewer, hunits.1, hunits.2, not_not.mp hroot, hcounts⟩, ?_⟩
        cases operationId with
        | none =>
          cases h
          rfl
        | some operationId =>
          dsimp only at h ⊢
          rw [StorageFundedTerm.activate]
          split at h
          · cases h
          · next servicePayments hclosed =>
            cases h
            rw [hclosed]
            rfl
  · rintro ⟨counts, hchecked, hterm⟩
    rw [if_neg, if_neg, if_neg, if_neg (not_not.mpr hchecked.root), hchecked.counted]
    · simp only [bind, Except.bind]
      cases operationId with
      | none =>
        cases hterm
        rfl
      | some operationId =>
        obtain ⟨servicePayments, hclosed, rfl⟩ := Option.map_eq_some_iff.mp hterm
        dsimp only
        rw [hclosed]
        rfl
    · exact fun hbad => hbad.elim (absurd hchecked.units) (absurd hchecked.chunks)
    · rw [Option.any_eq_true]
      rintro ⟨last, hlast, hle⟩
      exact UInt64.not_le.mpr (hchecked.epoch last hlast) (of_decide_eq_true hle)
    · rintro (hnewest | hparent | hearly | hheight)
      · exact hnewest hchecked.newest
      · cases hparent.symm.trans hchecked.seed
      · exact UInt64.not_lt.mpr hchecked.early hearly
      · exact hheight hchecked.height

/-! ### A term with a declaration -/

/-- The providers that `PREPARE` accepts are as a declaration must list them. -/
theorem acceptEligible_valid {payer : AccountId}
    {prior : Option StorageId} {l : List StorageSettlementBinding} {accepted : List StorageAcceptedBinding}
    {out : Bytes} (hwrite : writeEligible prior l = some out)
    (h : acceptEligible s network height payer l = .ok accepted) :
    eligibleValid s.hasAccount s.keyEpoch payer height prior accepted = true ∧ accepted.length = l.length := by
  induction l generalizing prior accepted out with
  | nil =>
    cases h
    exact ⟨rfl, rfl⟩
  | cons e rest ih =>
    simp only [writeEligible] at hwrite
    split at hwrite
    · cases hwrite
    next horder =>
    split at hwrite
    · cases hwrite
    obtain ⟨tail, htail, -⟩ := Option.bind_eq_some_iff.mp hwrite
    unfold acceptEligible at h
    dsimp only at h
    split at h
    · cases h
    next identity hidentity =>
    split at h
    · cases h
    next haccount =>
    split at h
    · cases h
    next hpayer =>
    split at h
    · cases h
    cases hrest : acceptEligible s network height payer rest with
    | error e' =>
      rw [hrest] at h
      cases h
    | ok accepted' =>
      rw [hrest] at h
      cases h
      obtain ⟨hvalid, hlength⟩ := ih htail hrest
      push Not at horder
      have hepoch : s.keyEpoch e.binding.payoutAccount = some identity.keyEpoch := by
        rw [CybouState.keyEpoch, hidentity, Option.map_some]
      have hprior : prior.all (fun p => decide (p < e.storageId)) = true := by
        rw [Option.all_eq_true]
        intro p hp
        refine decide_eq_true (by_contra fun hlate => horder.2 ?_)
        rw [Option.mem_def.mp hp, Option.any_some, decide_eq_false hlate]
        rfl
      refine ⟨?_, by rw [List.length_cons, List.length_cons, hlength]⟩
      simp only [eligibleValid, Bool.and_eq_true, Bool.not_eq_true', decide_eq_true_eq, hepoch, Option.all_some]
      exact ⟨⟨⟨⟨⟨⟨Bool.eq_false_of_not_eq_true horder.1, hpayer⟩, Bool.eq_true_of_not_eq_false haccount⟩,
        UInt64.le_refl _⟩, trivial⟩, hprior⟩, hvalid⟩

section Terms

variable {hasAccount : AccountId → Bool} {keyEpoch : AccountId → Option UInt64} {nextPeriod : UInt64}
  {lease : StorageLeaseRecord} {term term' : StorageFundedTerm}

variable {priorEpoch : UInt64}

omit [Crypto] in
/-- **A declaration behind the others**: newer than all of them and not below their heights. -/
theorem declarationsValid_append {priorHeight : UInt64} {l : List StorageAssignmentDeclaration}
    {d : StorageAssignmentDeclaration} (hd : declarationValid hasAccount keyEpoch lease term' d = true)
    (hdeclared : term'.declarations ≠ []) (hnext : term'.nextAssignmentEpoch = d.epoch + 1)
    (hnewer : term.nextAssignmentEpoch ≤ d.epoch) (hmax : d.epoch ≠ UINT64_MAX)
    (hheights : ∀ e ∈ l, e.height ≤ d.height) (hepoch : priorEpoch < d.epoch) (hheight : priorHeight ≤ d.height)
    (h : declarationsValid hasAccount keyEpoch lease term priorEpoch priorHeight l = true) :
    declarationsValid hasAccount keyEpoch lease term' priorEpoch priorHeight (l ++ [d]) = true := by
  induction l generalizing priorEpoch priorHeight with
  | nil =>
    rw [List.nil_append, declarationsValid, declarationsValid, if_neg hdeclared, hd, decide_eq_true hepoch,
      decide_eq_true hheight, decide_eq_true hnext]
    rfl
  | cons e rest ih =>
    rw [List.forall_mem_cons] at hheights
    rw [declarationsValid, Bool.and_eq_true, Bool.and_eq_true, Bool.and_eq_true] at h
    obtain ⟨⟨⟨he, hprior⟩, hpriorHeight⟩, hrest⟩ := h
    have hearlier : e.epoch < d.epoch := by
      simp only [declarationValid, Bool.and_eq_true, decide_eq_true_eq] at he
      exact UInt64.lt_of_lt_of_le he.1.1.1.1.1.1.2 hnewer
    have he' : declarationValid hasAccount keyEpoch lease term' e = true := by
      simp only [declarationValid, Bool.and_eq_true, decide_eq_true_eq] at he ⊢
      have hlt : e.epoch < term'.nextAssignmentEpoch := by
        rw [hnext]
        exact UInt64.lt_trans hearlier (lt_add_one_of_ne_max hmax)
      exact ⟨⟨⟨⟨⟨⟨⟨he.1.1.1.1.1.1.1, hlt⟩, he.1.1.1.1.1.2⟩, he.1.1.1.1.2⟩, he.1.1.1.2⟩, he.1.1.2⟩, he.1.2⟩, he.2⟩
    rw [List.cons_append, declarationsValid, he', hprior, hpriorHeight]
    exact ih hheights.2 hearlier hheights.1 hrest

variable {added : List StorageAssignmentDeclaration}

omit [Crypto] in
theorem assignmentValid_mono {a : StorageAcceptedAssignment}
    (hdeclarations : term'.declarations = term.declarations ++ added) (hfirst : term'.firstPeriod = term.firstPeriod)
    (hend : term'.endPeriod = term.endPeriod) (h : assignmentValid lease term nextPeriod a = true) :
    assignmentValid lease term' nextPeriod a = true := by
  unfold assignmentValid at h
  split at h
  · cases h
  next d hd =>
  rw [assignmentValid, hdeclarations, List.find?_append, hd, Option.some_or, hfirst, hend]
  exact h

omit [Crypto] in
theorem assignmentsValid_mono {priorPeriod : UInt64} {l : List StorageAcceptedAssignment}
    (hdeclarations : term'.declarations = term.declarations ++ added)
    (hfirst : term'.firstPeriod = term.firstPeriod) (hend : term'.endPeriod = term.endPeriod)
    (h : assignmentsValid lease term nextPeriod priorEpoch priorPeriod l = true) :
    assignmentsValid lease term' nextPeriod priorEpoch priorPeriod l = true := by
  induction l generalizing priorEpoch priorPeriod with
  | nil => rfl
  | cons a rest ih =>
    simp only [assignmentsValid, Bool.and_eq_true] at h ⊢
    exact ⟨⟨⟨assignmentValid_mono hdeclarations hfirst hend h.1.1.1, h.1.1.2⟩, h.1.2⟩, ih h.2⟩

/-! ### The record of a term -/

omit [Crypto] in
/-- The term with more in its record; `closed` are its closed epoch capacities then. -/
def StorageFundedTerm.extend (term : StorageFundedTerm) (declarations : List StorageAssignmentDeclaration)
    (nextAssignmentEpoch : UInt64) (newest : Option StorageAcceptedAssignment)
    (closed : StorageServicePayment → UInt64) : StorageFundedTerm :=
  { term with
    declarations := term.declarations ++ declarations
    nextAssignmentEpoch
    assignments := term.assignments ++ newest.toList
    servicePayments := term.servicePayments.map fun e => { e with closedEpochCapacity := closed e } }

variable {declarations : List StorageAssignmentDeclaration} {nextAssignmentEpoch : UInt64}
  {newest : Option StorageAcceptedAssignment} {closed : StorageServicePayment → UInt64}

omit [Crypto] in
theorem servicePaymentsValid_map {budget : AssignedStorageBudget} {prior : Option ServiceKey}
    {l : List StorageServicePayment}
    (hvalid : ∀ e ∈ l, servicePaymentValid lease term budget nextPeriod e = true →
      servicePaymentValid lease term' budget nextPeriod { e with closedEpochCapacity := closed e } = true)
    (h : servicePaymentsValid lease term budget nextPeriod prior l = true) :
    servicePaymentsValid lease term' budget nextPeriod prior
      (l.map fun e => { e with closedEpochCapacity := closed e }) = true := by
  induction l generalizing prior with
  | nil => rfl
  | cons e rest ih =>
    rw [List.forall_mem_cons] at hvalid
    simp only [List.map_cons, servicePaymentsValid, Bool.and_eq_true] at h ⊢
    exact ⟨⟨hvalid.1 h.1.1, h.1.2⟩, ih hvalid.2 h.2⟩

omit [Crypto] in
/-- **A term stays valid with more in its record**, if the record is valid. -/
theorem termValid_extend (h : termValid hasAccount keyEpoch nextPeriod lease term = true)
    (haccounts : ∀ id, hasAccount id = true → Hash256.isNull id = false)
    (hdeclarations : declarationsValid hasAccount keyEpoch lease
      (term.extend declarations nextAssignmentEpoch newest closed) 0 0 (term.declarations ++ declarations) = true)
    (hassignments : assignmentsValid lease (term.extend declarations nextAssignmentEpoch newest closed) nextPeriod
      0 0 (term.assignments ++ newest.toList) = true)
    (hepoch : nextAssignmentEpoch ≠ 0) (hroom : (term.declarations ++ declarations).length ≤ UINT32_MAX)
    (hroom' : (term.assignments ++ newest.toList).length ≤ UINT32_MAX)
    (hbefore : ∀ epoch ∈ newest, nextPeriod ≤ epoch.effectivePeriod)
    (hclosed : ∀ budget, ∀ e ∈ term.servicePayments, servicePaymentValid lease term budget nextPeriod e = true →
      ∃ through, (term.extend declarations nextAssignmentEpoch newest closed).closedThrough lease.endPeriod
          nextPeriod = some through ∧ (∀ epoch ∈ newest, through ≤ epoch.effectivePeriod) ∧
        computeAcceptedStorageCapacity term e.slot e.storageId e.payoutAccount through lease.endPeriod =
          some (closed e)) :
    termValid hasAccount keyEpoch nextPeriod lease
      (term.extend declarations nextAssignmentEpoch newest closed) = true := by
  obtain ⟨budget, hbudget, hfacts⟩ := termValid_iff.mp h
  have hinvariants : AssignmentInvariants hasAccount keyEpoch nextPeriod lease term :=
    ⟨⟨budget, hbudget, hfacts.seconds⟩, hfacts.periods, hfacts.declarations, hfacts.assignments, haccounts⟩
  have hinvariants' : AssignmentInvariants hasAccount keyEpoch nextPeriod lease
      (term.extend declarations nextAssignmentEpoch newest closed) :=
    ⟨⟨budget, hbudget, hfacts.seconds⟩, hfacts.periods, hdeclarations, hassignments, haccounts⟩
  have hkept := fun through (hthrough : ∀ epoch ∈ newest, through ≤ epoch.effectivePeriod) slot storageId
      payoutAccount => hinvariants.capacity_kept hinvariants' rfl rfl rfl rfl hthrough slot storageId payoutAccount
    lease.endPeriod
  refine termValid_iff.mpr ⟨budget, hbudget,
    { funding := hfacts.funding, periods := hfacts.periods, accounts := hfacts.accounts, share := hfacts.share
      seconds := hfacts.seconds, total := hfacts.total, epoch := hepoch, declarationCount := hroom
      assignmentCount := hroom', paymentCount := ?_, declarations := hdeclarations, assignments := hassignments
      payments := ?_, paid := ?_, service := ?_ }⟩
  · rw [StorageFundedTerm.extend, List.length_map]
    exact hfacts.paymentCount
  · refine servicePaymentsValid_map ?_ hfacts.payments
    intro e he hvalid
    obtain ⟨through, hthrough, hlate, hcapacity'⟩ := hclosed budget e he hvalid
    simp only [servicePaymentValid, Bool.and_eq_true, decide_eq_true_eq] at hvalid ⊢
    obtain ⟨⟨⟨⟨⟨hslot, hverified⟩, hassigned⟩, hcapacity⟩, -⟩, hpayout⟩ := hvalid
    have hassigned' : (term.extend declarations nextAssignmentEpoch newest closed).assignments ≠ [] :=
      fun hnil => hassigned (List.append_eq_nil_iff.mp hnil).1
    rw [hkept nextPeriod hbefore, hthrough, Option.bind_some, hkept through hlate, hcapacity']
    exact ⟨⟨⟨⟨⟨hslot, hverified⟩, hassigned'⟩, hcapacity⟩, rfl⟩, hpayout⟩
  · rw [StorageFundedTerm.extend, List.map_map]
    exact hfacts.paid
  · intro slot hslot
    rw [StorageFundedTerm.extend, slotService, List.filter_map, List.map_map]
    exact hfacts.service slot hslot

end Terms

/-! ### Recording a declaration -/

omit [Crypto] in
theorem StorageFundedTerm.declare_eq (term : StorageFundedTerm) (op : StorageSettlement) (height : UInt64)
    (eligible : List StorageAcceptedBinding) (operationId : Hash256) :
    term.declare op height eligible operationId =
      term.extend [{ operationId, epoch := op.assignmentEpoch, height, eligible }] (op.assignmentEpoch + 1) none
        (·.closedEpochCapacity) := by
  have hpayments : (term.servicePayments.map fun e => { e with closedEpochCapacity := e.closedEpochCapacity }) =
      term.servicePayments := List.map_id' _
  rw [StorageFundedTerm.declare, StorageFundedTerm.extend, Option.toList_none, List.append_nil, hpayments]

omit [Crypto] in
theorem prepare_body (haction : op.action = .prepare) (hbody : serializeSettlementBody op ≠ none) :
    op.assignmentEpoch ≠ 0 ∧ op.eligible ≠ [] ∧ op.eligible.length ≤ 20 ∧
      ∃ out, writeEligible none op.eligible = some out := by
  obtain ⟨out, hout⟩ := Option.ne_none_iff_exists'.mp hbody
  unfold serializeSettlementBody at hout
  split at hout
  · cases hout
  rw [if_pos (by rw [haction]; decide)] at hout
  split at hout
  · cases hout
  obtain ⟨tail, htail, -⟩ := Option.bind_eq_some_iff.mp hout
  rw [prepareBody] at htail
  split at htail
  · cases htail
  next hguard =>
  push Not at hguard
  obtain ⟨eligible, heligible, -⟩ := Option.bind_eq_some_iff.mp htail
  exact ⟨hguard.2.2.1, hguard.2.2.2.2.1, hguard.2.2.2.2.2, eligible, heligible⟩

/-- **A checked `PREPARE` leaves a valid term.** -/
theorem termValid_prepared {target : LocatedTerm} {eligible : List StorageAcceptedBinding}
    (h : termValid s.hasAccount s.keyEpoch s.settlement.nextPeriod target.lease target.term = true)
    (haccounts : ∀ id, s.hasAccount id = true → Hash256.isNull id = false) (haction : op.action = .prepare)
    (hbody : serializeSettlementBody op ≠ none) (hheight : height ≠ 0)
    (hchecked : PrepareChecked op s network height target eligible) (hid : operationId.isNull = false)
    (hheights : ∀ d ∈ target.term.declarations, d.height ≤ height)
    (hroom : target.term.declarations.length < UINT32_MAX) :
    termValid s.hasAccount s.keyEpoch s.settlement.nextPeriod target.lease
      (target.term.declare op height eligible operationId) = true := by
  obtain ⟨hepoch, hnonempty, hcount, out, hwrite⟩ := prepare_body haction hbody
  obtain ⟨budget, hbudget, hfacts⟩ := termValid_iff.mp h
  obtain ⟨heligible, hlength⟩ := acceptEligible_valid hwrite hchecked.accepted
  have hnext := lt_add_one_of_ne_max hchecked.last
  rw [StorageFundedTerm.declare_eq]
  refine termValid_extend h haccounts ?_ ?_ ?_ ?_ ?_ (fun _ => nofun) ?_
  · refine declarationsValid_append ?_ (by simp [StorageFundedTerm.extend]) rfl hchecked.epoch hchecked.last hheights
      ?_ UInt64.zero_le hfacts.declarations
    · simp only [declarationValid, Bool.and_eq_true, decide_eq_true_eq, Bool.not_eq_true']
      refine ⟨⟨⟨⟨⟨⟨⟨hid, hnext⟩, hheight⟩, hchecked.replicas⟩, ?_⟩, ?_⟩, heligible⟩, hchecked.accounts⟩
      · rintro rfl
        exact hnonempty (List.length_eq_zero_iff.mp hlength.symm)
      · omega
    · exact UInt64.pos_iff_ne_zero.mpr hepoch
  · rw [Option.toList_none, List.append_nil]
    exact assignmentsValid_mono rfl rfl rfl hfacts.assignments
  · intro hzero
    rw [hzero] at hnext
    exact UInt64.not_lt.mpr UInt64.zero_le hnext
  · rw [List.length_append, List.length_singleton]
    exact hroom
  · rw [Option.toList_none, List.append_nil]
    exact hfacts.assignmentCount
  · intro budget' e _ hvalid
    simp only [servicePaymentValid, Bool.and_eq_true, decide_eq_true_eq] at hvalid
    obtain ⟨through, hthrough, hcapacity⟩ := Option.bind_eq_some_iff.mp hvalid.1.2
    refine ⟨through, ?_, fun _ => nofun, hcapacity⟩
    rw [← hthrough, StorageFundedTerm.closedThrough, StorageFundedTerm.closedThrough, StorageFundedTerm.extend,
      Option.toList_none, List.append_nil]
    rfl

/-! ### Recording an activation -/

variable {term : StorageFundedTerm}

omit [Crypto] in
theorem closeEpochs_eq {throughPeriod closurePeriod : UInt64}
    {closed : StorageServicePayment → UInt64} {l : List StorageServicePayment}
    (h : ∀ e ∈ l, computeAcceptedStorageCapacity term e.slot e.storageId e.payoutAccount throughPeriod
      closurePeriod = some (closed e)) :
    closeEpochs term throughPeriod closurePeriod l =
      some (l.map fun e => { e with closedEpochCapacity := closed e }) := by
  induction l with
  | nil => rfl
  | cons e rest ih =>
    rw [List.forall_mem_cons] at h
    rw [closeEpochs, h.1, ih h.2]
    rfl

def closedCapacity (target : LocatedTerm) (op : StorageSettlement) (e : StorageServicePayment) : UInt64 :=
  (computeAcceptedStorageCapacity target.term e.slot e.storageId e.payoutAccount op.period
    target.lease.endPeriod).getD 0

def activatedEpoch (op : StorageSettlement) (parent : Hash256) (declaration : StorageAssignmentDeclaration)
    (counts : OrdMap ServiceKey UInt32) (operationId : Hash256) : StorageAcceptedAssignment :=
  { operationId, preparationId := op.preparationId, seed := parent, epoch := declaration.epoch
    effectivePeriod := op.period, allocations := countedAllocations counts }

omit [Crypto] in
theorem closedCapacity_eq {target : LocatedTerm} {budget : AssignedStorageBudget}
    {e : StorageServicePayment} (h : servicePaymentValid target.lease target.term budget op.period e = true) :
    computeAcceptedStorageCapacity target.term e.slot e.storageId e.payoutAccount op.period
      target.lease.endPeriod = some (closedCapacity target op e) := by
  simp only [servicePaymentValid, Bool.and_eq_true] at h
  rw [closedCapacity]
  cases hcase : computeAcceptedStorageCapacity target.term e.slot e.storageId e.payoutAccount op.period
      target.lease.endPeriod with
  | none =>
    rw [hcase] at h
    cases h.1.1.2
  | some capacity => rfl

variable {counts : OrdMap ServiceKey UInt32}

omit [Crypto] in
/-- **The epochs of a valid term can be closed.** -/
theorem activate_eq {target : LocatedTerm} {declaration : StorageAssignmentDeclaration}
    {hasAccount : AccountId → Bool} {keyEpoch : AccountId → Option UInt64}
    (h : termValid hasAccount keyEpoch op.period target.lease target.term = true) :
    target.term.activate op parent target.lease.endPeriod declaration counts operationId =
      some (target.term.extend [] target.term.nextAssignmentEpoch
        (some (activatedEpoch op parent declaration counts operationId)) (closedCapacity target op)) := by
  obtain ⟨budget, hbudget, hfacts⟩ := termValid_iff.mp h
  have hclosed := closeEpochs_eq fun e he => closedCapacity_eq (servicePaymentsValid_mem hfacts.payments e he)
  rw [StorageFundedTerm.activate, hclosed, Option.map_some, StorageFundedTerm.extend,
    List.append_nil]
  rfl

variable {lease : StorageLeaseRecord} {d : StorageAssignmentDeclaration}
  {l : List StorageAssignedUnits}

omit [Crypto] in
theorem allocationsValid_of_facts {prior : Option ServiceKey} (hordered : l.Pairwise fun a b => a.key < b.key)
    (hprior : ∀ p ∈ prior, ∀ u ∈ l, p < u.key) (hlimit : ∀ u ∈ l, u.slot < lease.replicas)
    (hunits : ∀ u ∈ l, u.units ≠ 0) (hlease : ∀ u ∈ l, u.units ≤ lease.units)
    (hdeclared : ∀ u ∈ l, ∃ e ∈ d.eligible, e.storageId = u.storageId ∧ e.payoutAccount = u.payoutAccount) :
    allocationsValid lease d prior l = true := by
  induction l generalizing prior with
  | nil => rfl
  | cons u rest ih =>
    rw [List.pairwise_cons] at hordered
    rw [List.forall_mem_cons] at hlimit hunits hlease hdeclared
    simp only [allocationsValid, Bool.and_eq_true, decide_eq_true_eq, Option.all_eq_true, List.any_eq_true]
    refine ⟨⟨⟨⟨⟨hlimit.1, hunits.1⟩, hlease.1⟩, fun p hp => hprior p hp u List.mem_cons_self⟩, hdeclared.1⟩,
      ih hordered.2 ?_ hlimit.2 hunits.2 hlease.2 hdeclared.2⟩
    rintro p ⟨⟩
    exact hordered.1

omit [Crypto] in
theorem AllocationFacts.units_le (h : AllocationFacts lease d l) : ∀ u ∈ l, u.units ≤ lease.units := by
  intro u hu
  have hslot := UInt8.lt_iff_toNat_lt.mp (h.limit u hu)
  have hmem : u.units.toNat ∈ (l.filter fun v => decide (v.slot.toNat = u.slot.toNat)).map (·.units.toNat) :=
    List.mem_map_of_mem (List.mem_filter.mpr ⟨hu, decide_eq_true rfl⟩)
  rw [UInt32.le_iff_toNat_le, ← h.slots _ hslot]
  exact List.single_le_sum (fun _ _ => Nat.zero_le _) _ hmem

omit [Crypto] in
theorem AllocationFacts.length_le (h : AllocationFacts lease d l) :
    l.length ≤ d.eligible.length * lease.replicas.toNat := by
  let place : StorageAssignedUnits → Nat × StorageId × AccountId := fun u => (u.slot.toNat, u.storageId, u.payoutAccount)
  let places : Finset (Nat × StorageId × AccountId) :=
    Finset.range lease.replicas.toNat ×ˢ (d.eligible.map fun e => (e.storageId, e.payoutAccount)).toFinset
  have hnodup : (l.map place).Nodup := by
    refine List.pairwise_map.mpr (h.ordered.imp ?_)
    intro u v hlt heq
    simp only [place, Prod.mk.injEq, UInt8.toNat_inj] at heq
    have hkey : u.key = v.key := by
      rw [StorageAssignedUnits.key, StorageAssignedUnits.key, heq.1, heq.2.1, heq.2.2]
    exact absurd hlt (hkey ▸ lt_irrefl _)
  have hsub : (l.map place).toFinset ⊆ places := by
    intro p hp
    obtain ⟨u, hu, rfl⟩ := List.mem_map.mp (List.mem_toFinset.mp hp)
    obtain ⟨e, he, hstorage, haccount⟩ := h.declared u hu
    refine Finset.mem_product.mpr ⟨Finset.mem_range.mpr (UInt8.lt_iff_toNat_lt.mp (h.limit u hu)), ?_⟩
    exact List.mem_toFinset.mpr (List.mem_map.mpr ⟨e, he, by rw [hstorage, haccount]⟩)
  calc l.length
    _ = (l.map place).toFinset.card := by rw [List.toFinset_card_of_nodup hnodup, List.length_map]
    _ ≤ places.card := Finset.card_le_card hsub
    _ = lease.replicas.toNat * (d.eligible.map fun e => (e.storageId, e.payoutAccount)).toFinset.card := by
      rw [Finset.card_product, Finset.card_range]
    _ ≤ lease.replicas.toNat * d.eligible.length := by
      refine Nat.mul_le_mul_left _ (Nat.le_trans (List.toFinset_card_le _) ?_)
      rw [List.length_map]
    _ = d.eligible.length * lease.replicas.toNat := Nat.mul_comm _ _

omit [Crypto] in
theorem AllocationFacts.ne_nil (h : AllocationFacts lease d l) (hunits : lease.units ≠ 0)
    (hreplicas : lease.replicas ≠ 0) : l ≠ [] := by
  rintro rfl
  have hpositive : 0 < lease.replicas.toNat := UInt8.lt_iff_toNat_lt.mp (UInt8.pos_iff_ne_zero.mpr hreplicas)
  exact hunits (UInt32.toNat_inj.mp (h.slots 0 hpositive).symm)

variable {nextPeriod priorEpoch nextAssignmentEpoch : UInt64}

omit [Crypto] in
theorem assignmentsValid_append
    {priorPeriod : UInt64} {l : List StorageAcceptedAssignment} {a : StorageAcceptedAssignment}
    (ha : assignmentValid lease term nextPeriod a = true)
    (hnewer : ∀ last ∈ l.getLast?, last.epoch < a.epoch) (hperiod : ∀ e ∈ l, e.effectivePeriod ≤ a.effectivePeriod)
    (hprior : l = [] → priorEpoch < a.epoch ∧ (priorEpoch = 0 ∨ priorPeriod ≤ a.effectivePeriod))
    (h : assignmentsValid lease term nextPeriod priorEpoch priorPeriod l = true) :
    assignmentsValid lease term nextPeriod priorEpoch priorPeriod (l ++ [a]) = true := by
  induction l generalizing priorEpoch priorPeriod with
  | nil =>
    obtain ⟨hepoch, hlate⟩ := hprior rfl
    simp only [List.nil_append, assignmentsValid, ha, decide_eq_true hepoch, Bool.true_and, Bool.and_true,
      Bool.or_eq_true, decide_eq_true_eq]
    exact hlate
  | cons e rest ih =>
    rw [List.forall_mem_cons] at hperiod
    rw [assignmentsValid, Bool.and_eq_true] at h
    rw [List.cons_append, assignmentsValid, h.1]
    refine ih ?_ hperiod.2 ?_ h.2
    · intro last hlast
      refine hnewer last ?_
      rw [List.getLast?_cons, Option.mem_def.mp hlast]
      rfl
    · rintro rfl
      exact ⟨hnewer e rfl, .inr hperiod.1⟩

omit [Crypto] in
theorem declarationsValid_congr {hasAccount : AccountId → Bool} {keyEpoch : AccountId → Option UInt64}
    {term' : StorageFundedTerm} (hdeclarations : term'.declarations = term.declarations)
    (hnext : term'.nextAssignmentEpoch = term.nextAssignmentEpoch) (priorEpoch priorHeight : UInt64)
    (l : List StorageAssignmentDeclaration) :
    declarationsValid hasAccount keyEpoch lease term' priorEpoch priorHeight l =
      declarationsValid hasAccount keyEpoch lease term priorEpoch priorHeight l := by
  induction l generalizing priorEpoch priorHeight with
  | nil => rw [declarationsValid, declarationsValid, hdeclarations, hnext]
  | cons d rest ih => rw [declarationsValid, declarationsValid, ih, declarationValid, declarationValid, hnext]

omit [Crypto] in
theorem declarationsValid_epoch {hasAccount : AccountId → Bool} {keyEpoch : AccountId → Option UInt64}
    {priorHeight : UInt64} {l : List StorageAssignmentDeclaration}
    (h : declarationsValid hasAccount keyEpoch lease term priorEpoch priorHeight l = true) :
    ∀ d ∈ l, priorEpoch < d.epoch := by
  induction l generalizing priorEpoch priorHeight with
  | nil => simp
  | cons d rest ih =>
    simp only [declarationsValid, Bool.and_eq_true, decide_eq_true_eq] at h
    exact List.forall_mem_cons.mpr ⟨h.1.1.2, fun e he => UInt64.lt_trans h.1.1.2 (ih h.2 e he)⟩

omit [Crypto] in
theorem find?_declaration {l : List StorageAssignmentDeclaration}
    (hnodup : (l.map (·.operationId)).Nodup) (hd : d ∈ l) :
    l.find? (fun e => decide (e.operationId = d.operationId)) = some d := by
  cases hfind : l.find? (fun e => decide (e.operationId = d.operationId)) with
  | none => exact absurd (decide_eq_true rfl) (List.find?_eq_none.mp hfind d hd)
  | some e =>
    have hid : e.operationId = d.operationId := by simpa using List.find?_some hfind
    rw [List.inj_on_of_nodup_map hnodup (List.mem_of_find?_eq_some hfind) hd hid]

/-- **A checked `ACTIVATE` leaves a valid term.** -/
theorem termValid_activated {target : LocatedTerm} {declaration : StorageAssignmentDeclaration}
    {hasAccount : AccountId → Bool} {keyEpoch : AccountId → Option UInt64}
    (h : termValid hasAccount keyEpoch op.period target.lease target.term = true)
    (haccounts : ∀ id, hasAccount id = true → Hash256.isNull id = false) (hunits : target.lease.units ≠ 0)
    (hreplicas : target.lease.replicas ≠ 0) (hfirst : target.term.firstPeriod ≤ op.period)
    (hlast : op.period < target.term.endPeriod) (hend : op.period < target.lease.endPeriod)
    (hchecked : ActivateChecked op network height parent publication target declaration counts)
    (hallocations : AllocationFacts target.lease declaration (countedAllocations counts))
    (hdeclared : declaration ∈ target.term.declarations) (hpreparation : declaration.operationId = op.preparationId)
    (hnodup : (target.term.declarations.map (·.operationId)).Nodup) (hid : operationId.isNull = false)
    (hroom : target.term.assignments.length < UINT32_MAX) :
    termValid hasAccount keyEpoch op.period target.lease (target.term.extend [] target.term.nextAssignmentEpoch
      (some (activatedEpoch op parent declaration counts operationId)) (closedCapacity target op)) = true := by
  obtain ⟨budget, hbudget, hfacts⟩ := termValid_iff.mp h
  have hdeclaration := declarationsValid_mem hfacts.declarations declaration hdeclared
  refine termValid_extend h haccounts ?_ ?_ hfacts.epoch ?_ ?_ ?_ ?_
  · have hsame : (target.term.extend [] target.term.nextAssignmentEpoch
        (some (activatedEpoch op parent declaration counts operationId)) (closedCapacity target op)).declarations =
        target.term.declarations := List.append_nil _
    rw [List.append_nil, declarationsValid_congr hsame rfl]
    exact hfacts.declarations
  · refine assignmentsValid_append ?_ hchecked.epoch ?_ ?_ (assignmentsValid_mono rfl rfl rfl hfacts.assignments)
    · rw [assignmentValid, StorageFundedTerm.extend, List.append_nil, activatedEpoch]
      dsimp only
      rw [← hpreparation, find?_declaration hnodup hdeclared]
      simp only [Bool.and_eq_true, decide_eq_true_eq, Bool.not_eq_true', List.all_eq_true, List.mem_range]
      have hlength : (countedAllocations counts).length ≤ 20 * target.lease.replicas.toNat := by
        simp only [declarationValid, Bool.and_eq_true, decide_eq_true_eq] at hdeclaration
        exact Nat.le_trans hallocations.length_le (Nat.mul_le_mul_right _ hdeclaration.1.1.2)
      refine ⟨⟨⟨⟨⟨⟨⟨⟨⟨hid, hchecked.seed⟩, trivial⟩, hfirst⟩, hlast⟩, UInt64.le_refl _⟩,
        hallocations.ne_nil hunits hreplicas⟩, hlength⟩, ?_⟩, hallocations.slots⟩
      exact allocationsValid_of_facts hallocations.ordered (by simp) hallocations.limit hallocations.units
        hallocations.units_le hallocations.declared
    · intro e he
      exact (effectivePeriod_le hfacts.assignments he).2
    · intro _
      exact ⟨declarationsValid_epoch hfacts.declarations declaration hdeclared, .inl rfl⟩
  · rw [List.append_nil]
    exact hfacts.declarationCount
  · rw [Option.toList_some, List.length_append, List.length_singleton]
    exact hroom
  · rintro epoch ⟨⟩
    exact UInt64.le_refl _
  · intro budget' e _ hvalid
    refine ⟨op.period, ?_, ?_, closedCapacity_eq hvalid⟩
    · have hopen : ¬min target.term.endPeriod target.lease.endPeriod ≤ op.period := by
        rw [UInt64.le_iff_toNat_le, UInt64.toNat_min]
        rw [UInt64.lt_iff_toNat_lt] at hlast hend
        omega
      rw [StorageFundedTerm.closedThrough, StorageFundedTerm.closed, StorageFundedTerm.extend, if_neg (by simpa using hopen),
        Option.toList_some, List.getLast?_concat]
      rfl
    · rintro epoch ⟨⟩
      exact UInt64.le_refl _

/-! ### The state with a recorded term -/

theorem fundedTerms_perm {target : LocatedTerm} (htarget : target ∈ s.locatedTerms)
    (term' : StorageFundedTerm) :
    ∃ rest, s.fundedTerms.Perm (target.term :: rest) ∧
      (s.putLease target.publication (target.lease.setTerm target.index term')).fundedTerms.Perm (term' :: rest) := by
  obtain ⟨hlease, hindex⟩ := located htarget
  obtain ⟨hlt, hterm⟩ := List.getElem?_eq_some_iff.mp hindex
  have hold := (OrdMap.entries_perm_of_find? hlease).map fun e => e.2.fundedTerms
  have hnew := (OrdMap.entries_perm_of_find?
    (OrdMap.find?_set_self s.leases target.publication (target.lease.setTerm target.index term'))).map
      fun e => e.2.fundedTerms
  rw [OrdMap.erase_set] at hnew
  refine ⟨target.lease.fundedTerms.eraseIdx target.index ++
    ((s.leases.erase target.publication).entries.map fun e => e.2.fundedTerms).flatten, ?_, ?_⟩
  · refine hold.flatten.trans ?_
    rw [List.map_cons, List.flatten_cons, ← List.cons_append]
    refine List.Perm.append_right _ ?_
    rw [← hterm]
    exact (List.getElem_cons_eraseIdx_perm hlt).symm
  · refine hnew.flatten.trans ?_
    rw [List.map_cons, List.flatten_cons, ← List.cons_append]
    refine List.Perm.append_right _ ?_
    exact List.set_perm_cons_eraseIdx hlt term'

omit [Crypto] in
theorem map_set_of_eq {α β : Type} {f : α → β} {l : List α} {i : Nat} {a a' : α} (hi : l[i]? = some a)
    (hf : f a' = f a) : (l.set i a').map f = l.map f := by
  obtain ⟨hlt, rfl⟩ := List.getElem?_eq_some_iff.mp hi
  rw [List.map_set, hf, ← List.getElem_map f, List.set_getElem_self]
  rw [List.length_map]
  exact hlt

omit [Crypto] in
theorem termsOrdered_congr {leaseEnd end_ : UInt64} {l l' : List StorageFundedTerm}
    (h : l'.map (fun term => (term.firstPeriod, term.endPeriod)) =
      l.map fun term => (term.firstPeriod, term.endPeriod)) :
    termsOrdered leaseEnd end_ l' = termsOrdered leaseEnd end_ l := by
  induction l generalizing end_ l' with
  | nil => rw [List.map_nil, List.map_eq_nil_iff] at h; rw [h]
  | cons term rest ih =>
    obtain ⟨term', rest', rfl, hterm, hrest⟩ := List.map_eq_cons_iff.mp h
    rw [Prod.mk.injEq] at hterm
    rw [termsOrdered, termsOrdered, hterm.1, hterm.2, ih hrest]

variable {declarations : List StorageAssignmentDeclaration}
  {newest : Option StorageAcceptedAssignment}

omit [Crypto] in
/-- A lease stays valid with more in the record of a term. -/
theorem LeaseFacts.extend {hasAccount : AccountId → Bool} {keyEpoch : AccountId → Option UInt64}
    {published : Option PublicationRecord} {id : Hash256} {index : Nat}
    {closed : StorageServicePayment → UInt64} (h : LeaseFacts hasAccount keyEpoch nextPeriod published id lease)
    (hindex : lease.fundedTerms[index]? = some term) (hvalid : termValid hasAccount keyEpoch nextPeriod lease
      (term.extend declarations nextAssignmentEpoch newest closed) = true) :
    LeaseFacts hasAccount keyEpoch nextPeriod published id
      (lease.setTerm index (term.extend declarations nextAssignmentEpoch newest closed)) where
  id_ne_null := h.id_ne_null
  payer := h.payer
  units := h.units
  replicas := h.replicas
  replicaLimit := h.replicaLimit
  periods := h.periods
  started := h.started
  published := h.published
  funded := fun hnil => h.funded (by simpa [StorageLeaseRecord.setTerm] using hnil)
  termCount := by
    rw [StorageLeaseRecord.setTerm, List.length_set]
    exact h.termCount
  ordered := by
    have hperiods := @map_set_of_eq _ _ (fun t => (t.firstPeriod, t.endPeriod)) _ _ _
      (term.extend declarations nextAssignmentEpoch newest closed) hindex rfl
    rw [StorageLeaseRecord.setTerm, termsOrdered_congr hperiods]
    exact h.ordered
  terms := by
    intro t ht
    have hput : termValid hasAccount keyEpoch nextPeriod lease t = true := by
      rcases List.mem_or_eq_of_mem_set ht with hold | rfl
      · exact h.terms t hold
      · exact hvalid
    exact termValid_congr hput (AccountsGrow.refl _ _) rfl rfl rfl (SameService.refl t _ _)
  escrowOnboarding := by
    have hescrow := @map_set_of_eq _ _ (·.remainingOnboarding.toNat) _ _ _
      (term.extend declarations nextAssignmentEpoch newest closed) hindex rfl
    rw [StorageLeaseRecord.setTerm, hescrow]
    exact h.escrowOnboarding
  escrowLocked := by
    have hescrow := @map_set_of_eq _ _ (·.remainingLocked.toNat) _ _ _
      (term.extend declarations nextAssignmentEpoch newest closed) hindex rfl
    rw [StorageLeaseRecord.setTerm, hescrow]
    exact h.escrowLocked

/-- **Recording in a term keeps the state valid** exactly when the term is valid and
    the id is new. -/
theorem stateInvariant_extend {target : LocatedTerm}
    {closed : StorageServicePayment → UInt64} (h : StateInvariant s) (htarget : target ∈ s.locatedTerms)
    (hids : (target.term.extend declarations nextAssignmentEpoch newest closed).assignmentOperationIds.Perm
      (operationId :: target.term.assignmentOperationIds)) :
    StateInvariant (s.putLease target.publication (target.lease.setTerm target.index
        (target.term.extend declarations nextAssignmentEpoch newest closed))) ↔
      operationId ∉ s.assignmentOperationIds ∧
        termValid s.hasAccount s.keyEpoch s.settlement.nextPeriod target.lease
          (target.term.extend declarations nextAssignmentEpoch newest closed) = true := by
  obtain ⟨hlease, hindex⟩ := located htarget
  obtain ⟨rest, hold, hnew⟩ := fundedTerms_perm htarget
    (target.term.extend declarations nextAssignmentEpoch newest closed)
  have hidsOld : s.assignmentOperationIds.Perm
      (target.term.assignmentOperationIds ++ (rest.map (·.assignmentOperationIds)).flatten) :=
    (hold.map StorageFundedTerm.assignmentOperationIds).flatten
  have hidsNew : (s.putLease target.publication (target.lease.setTerm target.index
      (target.term.extend declarations nextAssignmentEpoch newest closed))).assignmentOperationIds.Perm
      (operationId :: s.assignmentOperationIds) :=
    ((hnew.map StorageFundedTerm.assignmentOperationIds).flatten.trans (hids.append_right _)).trans (hidsOld.symm.cons operationId)
  constructor
  · intro hput
    refine ⟨(List.nodup_cons.mp (hidsNew.nodup_iff.mp hput.assignmentOperationIds)).1, ?_⟩
    have hputLease := hput.lease target.publication _ (OrdMap.find?_set_self _ _ _)
    obtain ⟨hlt, -⟩ := List.getElem?_eq_some_iff.mp hindex
    have hvalid := (leaseValid_iff.mp hputLease).terms
      (target.term.extend declarations nextAssignmentEpoch newest closed) (List.mem_set hlt _)
    exact termValid_congr hvalid (AccountsGrow.refl _ _) rfl rfl rfl (SameService.refl _ _ _)
  · rintro ⟨hfresh, hvalid⟩
    refine { h with total := ?_, lease := ?_, fundingIds := ?_, assignmentOperationIds := ?_ }
    · have hset := exactTotal_putLease s target.publication (target.lease.setTerm target.index
        (target.term.extend declarations nextAssignmentEpoch newest closed))
      have hescrow : s.escrowAt target.publication = (target.lease.setTerm target.index
          (target.term.extend declarations nextAssignmentEpoch newest closed)).value := by
        rw [CybouState.escrowAt, hlease]
        rfl
      have htotal := h.total
      omega
    · intro id lease' hfind
      rw [CybouState.putLease, OrdMap.find?_set] at hfind
      split at hfind
      · next hid =>
        subst hid
        cases hfind
        exact leaseValid_iff.mpr ((leaseValid_iff.mp (h.lease _ _ hlease)).extend hindex hvalid)
      · exact h.lease id lease' hfind
    · have hfunding : (target.term.extend declarations nextAssignmentEpoch newest closed).fundingOperationId =
          target.term.fundingOperationId := rfl
      have hperm := hnew.map (·.fundingOperationId)
      rw [List.map_cons, hfunding, ← List.map_cons] at hperm
      exact (hperm.trans (hold.map (·.fundingOperationId)).symm).nodup_iff.mpr h.fundingIds
    · exact hidsNew.nodup_iff.mpr (List.nodup_cons.mpr ⟨hfresh, h.assignmentOperationIds⟩)

theorem stateInvariant_recordTerm {target : LocatedTerm} :
    StateInvariant (s.recordTerm op target term) ↔
      StateInvariant (s.putLease target.publication (target.lease.setTerm target.index term)) := by
  rw [CybouState.recordTerm]
  split
  · exact ⟨fun h => { h with }, fun h => { h with }⟩
  · exact Iff.rfl

/-! ### The preview and the execution -/

/-- What is left to the validation of the whole state: the operation id is new, and the
    record of the term has room. -/
def Recordable (op : StorageSettlement) (s : CybouState) : Prop :=
  (∀ id ∈ computeOperationId (.storageSettlement op), id ∉ s.assignmentOperationIds) ∧
    ∀ target declaration, (target, declaration) ∈ assignmentTargets op s →
      (if op.action = .prepare then target.term.declarations.length else target.term.assignments.length) < UINT32_MAX

theorem recordable_iff {target : LocatedTerm}
    (hid : computeOperationId (.storageSettlement op) = some operationId)
    (htargets : assignmentTargets op s = [(target, declaration)]) :
    Recordable op s ↔ operationId ∉ s.assignmentOperationIds ∧
      (if op.action = .prepare then target.term.declarations.length else target.term.assignments.length) <
        UINT32_MAX := by
  rw [Recordable, hid, htargets]
  constructor
  · rintro ⟨hfresh, hroom⟩
    exact ⟨hfresh operationId rfl, hroom target declaration (List.mem_singleton_self _)⟩
  · rintro ⟨hfresh, hroom⟩
    refine ⟨?_, ?_⟩
    · rintro id ⟨⟩
      exact hfresh
    · intro target' declaration' hmem
      obtain ⟨rfl, -⟩ := Prod.mk.injEq _ _ _ _ ▸ List.mem_singleton.mp hmem
      exact hroom

theorem AssignmentFront.target {target : LocatedTerm}
    (h : AssignmentFront op network height s target declaration publication) (hvalid : StateInvariant s) :
    target ∈ s.locatedTerms ∧
      LeaseFacts s.hasAccount s.keyEpoch op.period (s.publications.find? target.publication) target.publication
        target.lease ∧
      termValid s.hasAccount s.keyEpoch op.period target.lease target.term = true ∧
      (target.term.declarations.map (·.operationId)).Nodup := by
  have hmem : (target, declaration) ∈ assignmentTargets op s := by
    rw [h.targets]
    exact List.mem_singleton_self _
  obtain ⟨htarget, -⟩ := mem_assignmentTargets hmem
  obtain ⟨hlease, hindex⟩ := located htarget
  have hfacts := leaseValid_iff.mp (hvalid.lease _ _ hlease)
  rw [← h.period] at hfacts
  have hterm := List.mem_of_getElem? hindex
  refine ⟨htarget, hfacts, hfacts.terms _ hterm, ?_⟩
  have hids := (List.nodup_flatten.mp hvalid.assignmentOperationIds).1 target.term.assignmentOperationIds
    (List.mem_map.mpr ⟨target.term, mem_fundedTerms.mpr ⟨_, _, hlease, hterm⟩, rfl⟩)
  exact (List.nodup_append.mp hids).1

/-- **What the preview passes, the execution can record**, up to the validation of the
    whole state. -/
theorem exists_assigns_iff (h : StateInvariant s) (hid : computeOperationId (.storageSettlement op) ≠ none) :
    (∃ target term, Assigns op network height parent false s target term) ↔
      ∃ target term, Assigns op network height parent true s target term := by
  obtain ⟨operationId, hoperationId⟩ := Option.ne_none_iff_exists'.mp hid
  have hrecorded : recordedId op true = some operationId := by rw [recordedId, if_pos rfl, hoperationId]
  constructor
  · rintro ⟨target, term, declaration, publication, hfront, hterm⟩
    cases declaration with
    | none =>
      rw [assignedTerm, Except.ok.injEq] at hterm
      obtain ⟨eligible, hchecked, -⟩ := prepareTerm_iff.mp hterm
      have hprepared := (@prepareTerm_iff _ op s network height (recordedId op true) target _).mpr ⟨eligible, hchecked, rfl⟩
      exact ⟨target, _, none, publication, hfront, congrArg Except.ok hprepared⟩
    | some d =>
      obtain ⟨counts, hchecked, -⟩ := activateTerm_iff.mp hterm
      obtain ⟨-, -, hvalid, -⟩ := hfront.target h
      have hactivated := (@activateTerm_iff _ op network height parent (some operationId) publication target d _).mpr
        ⟨counts, hchecked, activate_eq hvalid⟩
      rw [← hrecorded] at hactivated
      exact ⟨target, _, some d, publication, hfront, hactivated⟩
  · rintro ⟨target, term, declaration, publication, hfront, hterm⟩
    cases declaration with
    | none =>
      rw [assignedTerm, Except.ok.injEq] at hterm
      obtain ⟨eligible, hchecked, -⟩ := prepareTerm_iff.mp hterm
      have hprepared := (@prepareTerm_iff _ op s network height (recordedId op false) target _).mpr ⟨eligible, hchecked, rfl⟩
      exact ⟨target, _, none, publication, hfront, congrArg Except.ok hprepared⟩
    | some d =>
      obtain ⟨counts, hchecked, -⟩ := activateTerm_iff.mp hterm
      exact ⟨target, target.term, some d, publication, hfront, activateTerm_iff.mpr ⟨counts, hchecked, rfl⟩⟩

theorem ActivateChecked.allocations {target : LocatedTerm} {declaration : StorageAssignmentDeclaration}
    (h : ActivateChecked op network height parent publication target declaration counts) :
    AllocationFacts target.lease declaration (countedAllocations counts) := by
  have hbound := target.lease.units.toNat_lt
  have hunits := h.units
  have htally := assignChunks_tally (by omega) (tally_empty (declaredProviders declaration) _) h.counted
  rw [Nat.zero_add, hunits] at htally
  exact Tally.allocationFacts htally

/-- **The validation of the whole state** accepts what a call recorded exactly when it was
    recordable. -/
theorem recordTerm_valid_iff {target : LocatedTerm} (h : StateInvariant s)
    (hid : computeOperationId (.storageSettlement op) ≠ none)
    (hheights : ∀ term ∈ s.fundedTerms, ∀ d ∈ term.declarations, d.height ≤ height)
    (hassigns : Assigns op network height parent true s target term) :
    StateInvariant (s.recordTerm op target term) ↔ Recordable op s := by
  obtain ⟨operationId, hoperationId⟩ := Option.ne_none_iff_exists'.mp hid
  have hnull := computeOperationId_ne_null hoperationId
  obtain ⟨declaration, publication, hfront, hterm⟩ := hassigns
  have hrecorded : recordedId op true = some operationId := by rw [recordedId, if_pos rfl, hoperationId]
  obtain ⟨htarget, hlease, hvalid, hnodup⟩ := hfront.target h
  have hmem : (target, declaration) ∈ assignmentTargets op s := by
    rw [hfront.targets]
    exact List.mem_singleton_self _
  have haccounts := fun id (hid : s.hasAccount id = true) => h.hasAccount_ne_null hid
  rw [stateInvariant_recordTerm, recordable_iff hoperationId hfront.targets]
  obtain ⟨-, ⟨haction, rfl, -⟩ | ⟨haction, d, hd, rfl, hpreparation⟩⟩ := mem_assignmentTargets hmem
  · rw [assignedTerm, hrecorded, Except.ok.injEq] at hterm
    obtain ⟨eligible, hchecked, rfl⟩ := prepareTerm_iff.mp hterm
    rw [Option.map_some, Option.getD_some, StorageFundedTerm.declare_eq, stateInvariant_extend h htarget, if_pos haction]
    · refine and_congr_right fun _ => ⟨?_, ?_⟩
      · intro hdeclared
        obtain ⟨budget, -, hfacts⟩ := termValid_iff.mp hdeclared
        have hcount := hfacts.declarationCount
        rw [StorageFundedTerm.extend, List.length_append, List.length_singleton] at hcount
        exact hcount
      · intro hroom
        obtain ⟨hstate, hindex⟩ := located htarget
        have hfound := mem_fundedTerms.mpr ⟨_, _, hstate, List.mem_of_getElem? hindex⟩
        rw [hfront.period] at hvalid
        rw [← StorageFundedTerm.declare_eq]
        exact termValid_prepared hvalid haccounts haction hfront.body hfront.height hchecked hnull
          (hheights target.term hfound) hroom
    · rw [StorageFundedTerm.assignmentOperationIds, StorageFundedTerm.extend, List.map_append, Option.toList_none,
        List.append_nil, List.append_assoc]
      exact List.perm_middle
  · obtain ⟨counts, hchecked, hclosed⟩ := activateTerm_iff.mp hterm
    rw [hrecorded] at hclosed
    cases (activate_eq hvalid).symm.trans hclosed
    rw [stateInvariant_extend h htarget, if_neg (by rw [haction]; decide), ← hfront.period]
    · refine and_congr_right fun _ => ⟨?_, ?_⟩
      · intro hactivated
        obtain ⟨budget, -, hfacts⟩ := termValid_iff.mp hactivated
        have hcount := hfacts.assignmentCount
        rw [StorageFundedTerm.extend, Option.toList_some, List.length_append, List.length_singleton] at hcount
        exact hcount
      · intro hroom
        exact termValid_activated hvalid haccounts hlease.units hlease.replicas hfront.first hfront.last hfront.leaseEnd
          hchecked hchecked.allocations hd hpreparation hnodup hnull hroom
    · rw [StorageFundedTerm.assignmentOperationIds, StorageFundedTerm.extend, List.append_nil, List.map_append,
        Option.toList_some, ← List.append_assoc]
      exact List.perm_append_comm

theorem computeOperationId_settlement (hbody : serializeSettlementBody op ≠ none)
    (hlength : op.poaSignature.mlDsa.length = 3309) : computeOperationId (.storageSettlement op) ≠ none := by
  obtain ⟨body, hbody⟩ := Option.ne_none_iff_exists'.mp hbody
  have hbytes : serializeProtocolOperation (.storageSettlement op) =
      some ([10] ++ (body ++ op.poaSignature.ed25519.1 ++ op.poaSignature.mlDsa)) := by
    rw [serializeProtocolOperation, serializeOperationBody, serializeStorageSettlement, hbody]
    simp only [bind, Option.bind, if_neg (not_not.mpr hlength)]
    rfl
  rw [computeOperationId, hbytes]
  exact fun h => by cases h

section Runs

variable {settlement : StorageSettlement} {network : Hash256} {params : CybouProtocolParameters}
  {poaKey : IdentityHybridPublicKey} {height : UInt64} {parent : Hash256} {s : CybouState} {digest : Hash256}

theorem checkStorageSettlementInputs_unchanged :
    wp (checkStorageSettlementInputs settlement params network height parent) (fun _ s' => s' = s)
      (fun _ s' => s' = s) s := by
  unfold checkStorageSettlementInputs
  split
  · rw [wp_bind, wp_onCopy]
    exact wp_mono wp_true (fun _ _ _ => rfl) fun _ _ _ => rfl
  · rw [wp_bind, wp_onCopy]
    refine wp_mono wp_true (fun r candidate _ => ?_) fun _ _ _ => rfl
    refine wp_refuse (fun _ => rfl) fun _ => ?_
    rw [wp_get_bind]
    split <;> rfl

theorem checkStorageSettlementInputs_assigns (haction : settlement.action ≠ .pay) :
    checkStorageSettlementInputs settlement params network height parent s = .ok .none s ↔
      ∃ target term, Assigns settlement network height parent false s target term := by
  have hspec := applyAssignmentInputs_iff settlement network height parent false s nofun
  rw [ok_iff_wp]
  unfold checkStorageSettlementInputs
  rw [if_pos haction, wp_bind, wp_onCopy]
  rw [wp] at hspec ⊢
  cases hrun : applyAssignmentInputs settlement network height parent false s with
  | error fault candidate =>
    rw [hrun] at hspec
    exact ⟨False.elim, hspec⟩
  | ok r candidate =>
    rw [hrun] at hspec
    exact ⟨fun h => hspec.1.mp h.1, fun h => ⟨hspec.1.mpr h, rfl⟩⟩

/-- The execution of `PREPARE` and `ACTIVATE`. -/
theorem applyStorageSettlement_assigns (hdigest : computeStorageSettlementDigest network settlement = some digest)
    (hpurpose : poaKey.purpose = .poaFinalizer)
    (hverify : verifyIdentityMessage poaKey settlement.poaSignature digest.1 = true)
    (hid : computeOperationId (.storageSettlement settlement) ≠ none) (haction : settlement.action ≠ .pay) :
    (∃ s', applyStorageSettlement settlement network params poaKey height parent s = .ok .none s') ↔
      ∃ target term, Assigns settlement network height parent true s target term ∧
        StateInvariant (s.recordTerm settlement target term) := by
  have hspec := applyAssignmentInputs_iff settlement network height parent true s fun _ => hid
  have hsigned : ¬(poaKey.purpose ≠ .poaFinalizer ∨
      verifyIdentityMessage poaKey settlement.poaSignature digest.1 = false) := by
    rintro (hbad | hbad)
    · exact hbad hpurpose
    · cases hbad.symm.trans hverify
  rw [exists_ok_iff_wp]
  unfold applyStorageSettlement
  rw [hdigest]
  dsimp only
  rw [if_neg hsigned, if_pos haction, wp_bind, wp_onCopy]
  rw [wp] at hspec ⊢
  cases hrun : applyAssignmentInputs settlement network height parent true s with
  | error fault candidate =>
    rw [hrun] at hspec
    refine ⟨False.elim, ?_⟩
    rintro ⟨target, term, hassigns, -⟩
    exact hspec ⟨target, term, hassigns⟩
  | ok r candidate =>
    rw [hrun] at hspec
    obtain ⟨hnone, hcandidate⟩ := hspec
    dsimp only
    by_cases hr : r = .none
    · obtain ⟨target, term, hassigns⟩ := hnone.mp hr
      have hwritten : candidate = s.recordTerm settlement target term := hcandidate target term hassigns
      rw [if_neg (not_not.mpr hr)]
      by_cases hvalid : validateCybouState candidate = .none
      · rw [if_neg (not_not.mpr hvalid), wp_set_bind, wp_pure]
        refine ⟨fun _ => ⟨target, term, hassigns, ?_⟩, fun _ => rfl⟩
        rw [← hwritten]
        exact validateCybouState_eq_none.mp hvalid
      · rw [if_pos hvalid, wp_pure]
        refine ⟨fun h => (by cases h), ?_⟩
        rintro ⟨target', term', hassigns', hinvariant⟩
        rw [← show candidate = s.recordTerm settlement target' term' from hcandidate target' term' hassigns'] at hinvariant
        exact absurd (validateCybouState_eq_none.mpr hinvariant) hvalid
    · rw [if_pos hr, wp_pure]
      refine ⟨fun h => absurd h hr, ?_⟩
      rintro ⟨target, term, hassigns, -⟩
      exact absurd (hnone.mpr ⟨target, term, hassigns⟩) hr

theorem settlement_preview_pay (hdigest : computeStorageSettlementDigest network settlement = some digest)
    (hpurpose : poaKey.purpose = .poaFinalizer)
    (hverify : verifyIdentityMessage poaKey settlement.poaSignature digest.1 = true)
    (haction : settlement.action = .pay) :
    (∃ s', applyStorageSettlement settlement network params poaKey height parent s = .ok .none s') ↔
      checkStorageSettlementInputs settlement params network height parent s = .ok .none s := by
  have hsigned : ¬(poaKey.purpose ≠ .poaFinalizer ∨
      verifyIdentityMessage poaKey settlement.poaSignature digest.1 = false) := by
    rintro (hbad | hbad)
    · exact hbad hpurpose
    · cases hbad.symm.trans hverify
  rw [exists_ok_iff_wp, ok_iff_wp]
  unfold applyStorageSettlement checkStorageSettlementInputs
  rw [hdigest]
  dsimp only
  rw [if_neg hsigned, if_neg (not_not.mpr haction), if_neg (not_not.mpr haction), wp_bind, wp_bind, wp_onCopy,
    wp_onCopy, wp, wp]
  cases applyPayInputs settlement params s with
  | error fault candidate => exact Iff.rfl
  | ok r candidate =>
    dsimp only
    by_cases hr : r = .none
    · rw [if_neg (not_not.mpr hr), if_neg (not_not.mpr hr), wp_get_bind, wp_get_bind]
      by_cases hvalid : validateCybouState candidate = .none ∧ totalCybou candidate = totalCybou s
      · rw [if_pos hvalid, if_neg, wp_set_bind, wp_pure, wp_pure]
        · exact ⟨fun _ => ⟨rfl, rfl⟩, fun _ => rfl⟩
        · exact fun hbad => hbad.elim (absurd hvalid.1) (absurd hvalid.2)
      · rw [if_neg hvalid, if_pos (Decidable.not_and_iff_not_or_not.mp hvalid), wp_pure, wp_pure]
        exact ⟨fun h => (by cases h), fun h => by cases h.1⟩
    · rw [if_pos hr, if_pos hr, wp_pure, wp_pure]
      exact ⟨fun h => ⟨h, rfl⟩, And.left⟩

/-- **The preview and the execution of a settlement agree** in a valid state, up to what
    only the validation of the whole state looks at. -/
theorem settlement_preview (hvalid : validateCybouState s = .none)
    (hheights : ∀ term ∈ s.fundedTerms, ∀ d ∈ term.declarations, d.height ≤ height)
    (hdigest : computeStorageSettlementDigest network settlement = some digest)
    (hpurpose : poaKey.purpose = .poaFinalizer)
    (hverify : verifyIdentityMessage poaKey settlement.poaSignature digest.1 = true) :
    (∃ s', applyStorageSettlement settlement network params poaKey height parent s = .ok .none s') ↔
      checkStorageSettlementInputs settlement params network height parent s = .ok .none s ∧
        (settlement.action ≠ .pay → Recordable settlement s) := by
  have hstate := validateCybouState_eq_none.mp hvalid
  by_cases haction : settlement.action = .pay
  · rw [settlement_preview_pay hdigest hpurpose hverify haction, and_iff_left (absurd haction)]
  have hbody : serializeSettlementBody settlement ≠ none := by
    intro hnone
    rw [computeStorageSettlementDigest, hnone] at hdigest
    cases hdigest
  have hlength : settlement.poaSignature.mlDsa.length = 3309 := by
    by_contra hbad
    rw [verifyIdentityMessage, if_pos] at hverify
    · cases hverify
    · rw [hpurpose]
      exact .inr hbad
  have hid := computeOperationId_settlement hbody hlength
  rw [applyStorageSettlement_assigns hdigest hpurpose hverify hid haction, checkStorageSettlementInputs_assigns haction,
    exists_assigns_iff hstate hid]
  constructor
  · rintro ⟨target, term, hassigns, hrecorded⟩
    exact ⟨⟨target, term, hassigns⟩, fun _ => (recordTerm_valid_iff hstate hid hheights hassigns).mp hrecorded⟩
  · rintro ⟨⟨target, term, hassigns⟩, hrecordable⟩
    exact ⟨target, term, hassigns, (recordTerm_valid_iff hstate hid hheights hassigns).mpr (hrecordable haction)⟩

end Runs

end

section Sample

attribute [local instance] Crypto.sample

set_option maxRecDepth 100000 in
theorem verifyIdentityMessage_sampleActivation (message : Bytes) :
    verifyIdentityMessage (sampleKey .poaFinalizer 9) sampleActivation.poaSignature message = true := by
  have hkey : (sampleKey .poaFinalizer 9).mlDsa.length = 1952 := by decide
  rw [verifyIdentityMessage, if_neg]
  · rfl
  · rintro (hbad | hbad)
    · exact hbad hkey
    · exact hbad List.length_replicate

set_option maxRecDepth 100000 in
theorem settlement_preview_sampleActivation :
    checkStorageSettlementInputs sampleActivation devProtocolParameters (sampleId 40) 7 (sampleId 41) declaredState =
        .ok .none declaredState ∧ Recordable sampleActivation declaredState := by
  have hvalid : validateCybouState declaredState = .none := by decide
  have hheights : (declaredState.fundedTerms.all fun term => term.declarations.all fun d => decide (d.height ≤ 7)) =
      true := by decide
  simp only [List.all_eq_true, decide_eq_true_eq] at hheights
  have hdigest : (computeStorageSettlementDigest (sampleId 40) sampleActivation).isSome = true := by decide
  obtain ⟨digest, hdigest⟩ := Option.isSome_iff_exists.mp hdigest
  have hrun : (match applyStorageSettlement sampleActivation (sampleId 40) devProtocolParameters
      (sampleKey .poaFinalizer 9) 7 (sampleId 41) declaredState with
    | .ok .none _ => true
    | _ => false) = true := by decide +kernel
  split at hrun
  · next s' heq =>
    obtain ⟨hpreview, hrecordable⟩ := (settlement_preview hvalid hheights hdigest rfl
      (verifyIdentityMessage_sampleActivation digest.1)).mp ⟨s', heq⟩
    exact ⟨hpreview, hrecordable (by decide)⟩
  · cases hrun

/-- An older declaration of the term has the id of that activation. -/
def repeatedState : CybouState :=
  { declaredState with
    leases := (∅ : OrdMap _ _).set (sampleId 6) { sampleLease with
      fundedTerms := [{ declaredTerm with
        nextAssignmentEpoch := 3
        declarations := [{ operationId := (computeOperationId (.storageSettlement sampleActivation)).getD Hash256.ZERO
                           epoch := 1, height := 5
                           eligible := [{ storageId := sampleStorageId, payoutAccount := sampleId 2, keyEpoch := 0
                                          acceptedHeight := 5 }] },
          { operationId := sampleId 20, epoch := 2, height := 5
            eligible := [{ storageId := sampleStorageId, payoutAccount := sampleId 2, keyEpoch := 0
                           acceptedHeight := 5 }] }] }] } }

set_option maxRecDepth 100000 in
/-- **The preview passes an activation whose id the valid state already holds**; its
    execution is refused. -/
theorem settlement_preview_repeated :
    validateCybouState repeatedState = .none ∧
      (∀ term ∈ repeatedState.fundedTerms, ∀ d ∈ term.declarations, d.height ≤ 7) ∧
      sampleActivation.poaSignature.mlDsa.length = 3309 ∧
      (∃ digest, computeStorageSettlementDigest (sampleId 40) sampleActivation = some digest ∧
        verifyIdentityMessage (sampleKey .poaFinalizer 9) sampleActivation.poaSignature digest.1 = true) ∧
      checkStorageSettlementInputs sampleActivation devProtocolParameters (sampleId 40) 7 (sampleId 41) repeatedState =
        .ok .none repeatedState ∧
      ¬∃ s', applyStorageSettlement sampleActivation (sampleId 40) devProtocolParameters (sampleKey .poaFinalizer 9) 7
        (sampleId 41) repeatedState = .ok .none s' := by
  refine ⟨by decide, ?_, List.length_replicate, ?_, ?_, ?_⟩
  · have hheights : (repeatedState.fundedTerms.all fun term => term.declarations.all fun d => decide (d.height ≤ 7)) =
        true := by decide
    simpa only [List.all_eq_true, decide_eq_true_eq] using hheights
  · have hdigest : (computeStorageSettlementDigest (sampleId 40) sampleActivation).isSome = true := by decide
    obtain ⟨digest, hdigest⟩ := Option.isSome_iff_exists.mp hdigest
    exact ⟨digest, hdigest, verifyIdentityMessage_sampleActivation digest.1⟩
  · have hrun : (match checkStorageSettlementInputs sampleActivation devProtocolParameters (sampleId 40) 7 (sampleId 41)
        repeatedState with
      | .ok .none _ => true
      | _ => false) = true := by decide +kernel
    split at hrun
    · next s' heq =>
      cases wp_of_ok checkStorageSettlementInputs_unchanged heq
      exact heq
    · cases hrun
  · rintro ⟨s', heq⟩
    have hrun : (match applyStorageSettlement sampleActivation (sampleId 40) devProtocolParameters
        (sampleKey .poaFinalizer 9) 7 (sampleId 41) repeatedState with
      | .ok .none _ => true
      | _ => false) = false := by decide +kernel
    rw [heq] at hrun
    cases hrun

end Sample

end Cybou

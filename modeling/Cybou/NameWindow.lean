import Cybou.NameHistory

/-! # The window of a name commit (`block_executor.cpp`, `state.cpp`)

Two places decide when a commit is too old.  The executor compares the age of the
commit, a difference; `ApplyNameReveal` compares the height with a 64-bit sum.
They part where the sum wraps, and so do the sum that bounds the work epoch of a
reveal and the difference that bounds the one of an account (`name_window_iff`).
Nothing keeps the parameters of a network from such sums.
-/

namespace Cybou

open Library Proc

/-! ### Sums and differences -/

theorem sub_le_iff {start height bound : UInt64} (h : start ≤ height) :
    height - start ≤ bound ↔ height.toNat - start.toNat ≤ bound.toNat := by
  rw [UInt64.le_iff_toNat_le, UInt64.toNat_sub_of_le _ _ h]

theorem add_lt_of_wraps {a b height : UInt64} (hle : a ≤ height) (h : ¬a.toNat + b.toNat < 2 ^ 64) :
    a + b < height := by
  have hb := b.toNat_lt
  rw [UInt64.le_iff_toNat_le] at hle
  rw [UInt64.lt_iff_toNat_lt, UInt64.toNat_add]
  omega

section

variable [Crypto]

/-! ### The windows -/

/-- The epoch of the work is neither in the future nor further back than the lag, in
    exact integers. -/
def InWorkWindow (blockHeight : UInt64) (params : CybouProtocolParameters) (workEpoch : UInt64) : Prop :=
  ((epochForHeight blockHeight params).toNat : Int) - params.accountCreationEpochLag.toNat ≤ workEpoch.toNat ∧
    workEpoch ≤ epochForHeight blockHeight params

/-- A reveal that meets every check of `ApplyNameReveal` but those on heights and
    epochs. -/
structure RevealReady (op : AuthorizedNameReveal) (networkBinding : Hash256) (params : CybouProtocolParameters)
    (s : CybouState) (record : NameCommitRecord) : Prop where
  kind : op.authorization.kind = .nameReveal
  payload : computeNameRevealPayloadCommitment op.reveal = some op.authorization.payloadCommitment
  label : validateNameLabel op.reveal.label = .none
  account : s.accounts.contains op.authorization.accountId = true
  unnamed : s.names.accountNames.contains op.authorization.accountId = false
  free : s.names.names.contains op.reveal.label = false
  unreserved : (s.genesisAllocations.entries.any fun e => decide (e.2.label = op.reveal.label)) = false
  commitment : op.reveal.work.commitment =
    computeNameCommitment networkBinding op.authorization.accountId op.reveal.label op.reveal.salt
  pending : s.names.pendingCommits.find? op.reveal.work.commitment = some record
  owner : record.accountId = op.authorization.accountId
  network : op.reveal.work.networkBinding = networkBinding
  workAccount : op.reveal.work.accountId = op.authorization.accountId
  work : checkNameClaimWork op.reveal.work params.nameClaimWorkBits = true
  authorized : (s.identities.authorizeOperation op.authorization networkBinding).1 = .none

/-- The executor and the reveal agree on the commit, and both on the window of the
    parameters, in exact integers; so do reveals and new accounts on the epoch of their
    work. -/
structure NameWindow (ctx : BlockContext) (s : CybouState) (op : AuthorizedNameReveal)
    (record : NameCommitRecord) : Prop where
  kept : (BlockExecutor.new s ctx).candidate.names.pendingCommits.find? op.reveal.work.commitment = some record ↔
    ∀ s', applyNameReveal op ctx.networkBinding ctx.blockHeight ctx.params s ≠ .ok .commitExpired s'
  accepted : nameWorkAccepted op ctx.networkBinding ctx.blockHeight ctx.params = true →
    ((∃ s', applyNameReveal op ctx.networkBinding ctx.blockHeight ctx.params s = .ok .none s') ↔
      ctx.params.nameCommitMinDepth.toNat ≤ ctx.blockHeight.toNat - record.commitHeight.toNat ∧
        ctx.blockHeight.toNat - record.commitHeight.toNat ≤ ctx.params.nameCommitMaxLifetime.toNat)
  epoch : nameWorkAccepted op ctx.networkBinding ctx.blockHeight ctx.params = true ↔
    InWorkWindow ctx.blockHeight ctx.params op.reveal.work.workEpoch
  created : ∀ (create : AccountCreateOp) (height : UInt64),
    validateAccountCreateOp create ctx.networkBinding height ctx.params = .none →
      (validateAccountCreateOp create ctx.networkBinding ctx.blockHeight ctx.params = .none ↔
        InWorkWindow ctx.blockHeight ctx.params create.work.workEpoch)

/-! ### What the code decides -/

def revealAnswer (op : AuthorizedNameReveal) (networkBinding : Hash256) (blockHeight : UInt64)
    (params : CybouProtocolParameters) (record : NameCommitRecord) : NameRevealError :=
  if blockHeight < record.commitHeight + params.nameCommitMinDepth then .insufficientCommitDepth
  else if blockHeight > record.commitHeight + params.nameCommitMaxLifetime then .commitExpired
  else if nameWorkAccepted op networkBinding blockHeight params = false then .invalidWorkProof
  else .none

variable {op : AuthorizedNameReveal} {networkBinding : Hash256} {params : CybouProtocolParameters}
  {s : CybouState} {record : NameCommitRecord}

theorem RevealReady.answer (h : RevealReady op networkBinding params s record) (blockHeight : UInt64) :
    ∃ s', applyNameReveal op networkBinding blockHeight params s =
      .ok (revealAnswer op networkBinding blockHeight params record) s' := by
  have hwp : wp (applyNameReveal op networkBinding blockHeight params)
      (fun answer _ => answer = revealAnswer op networkBinding blockHeight params record)
      (fun _ _ => False) s := by
    unfold applyNameReveal
    refine wp_refuse (fun hkind => absurd h.kind hkind) fun _ => ?_
    refine wp_refuse (fun hpayload => absurd h.payload hpayload) fun _ => ?_
    refine wp_refuse (fun hlabel => absurd h.label hlabel) fun _ => ?_
    rw [wp_get_bind]
    refine wp_refuse (fun haccount => ?_) fun _ => ?_
    · cases haccount.symm.trans h.account
    refine wp_refuse (fun hnamed => ?_) fun _ => ?_
    · cases hnamed.symm.trans h.unnamed
    refine wp_refuse (fun htaken => ?_) fun _ => ?_
    · rcases htaken with htaken | htaken
      · cases htaken.symm.trans h.free
      · cases htaken.symm.trans h.unreserved
    refine wp_refuse (fun hcommitment => absurd h.commitment hcommitment) fun _ => ?_
    rw [← h.commitment, h.pending]
    refine wp_refuse (fun howner => absurd h.owner howner) fun _ => ?_
    refine wp_refuse (fun hdepth => (if_pos hdepth).symm) fun hdepth => ?_
    rw [revealAnswer, if_neg hdepth]
    refine wp_refuse (fun hexpired => (if_pos hexpired).symm) fun hexpired => ?_
    rw [if_neg hexpired]
    refine wp_refuse (fun hwork => (if_pos hwork).symm) fun hwork => ?_
    rw [if_neg hwork, wp_bind, wp_authorizeOperation]
    refine wp_refuse (fun hauthorized => absurd h.authorized hauthorized) fun _ => ?_
    rw [wp_bind, wp_modify, wp_pure]
  unfold wp at hwp
  split at hwp
  · next answer s' hrun => exact ⟨s', hrun.trans (congrArg (EStateM.Result.ok · s') hwp)⟩
  · exact hwp.elim

theorem RevealReady.candidate {ctx : BlockContext} (h : RevealReady op ctx.networkBinding ctx.params s record)
    (hparams : validateProtocolParameters ctx.params = true) (hvalid : validateCybouState s = .none)
    (hle : record.commitHeight ≤ ctx.blockHeight) :
    (BlockExecutor.new s ctx).candidate.names.pendingCommits.find? op.reveal.work.commitment = some record ↔
      ctx.blockHeight.toNat - record.commitHeight.toNat ≤ ctx.params.nameCommitMaxLifetime.toNat := by
  obtain ⟨hdepth, hlifetime⟩ := validateProtocolParameters_names hparams
  have hpositive : ctx.params.nameCommitMaxLifetime > 0 := by
    refine UInt64.lt_of_lt_of_le ?_ hlifetime
    exact UInt64.pos_iff_ne_zero.mpr hdepth
  have hcandidate : (BlockExecutor.new s ctx).candidate = expireCommits ctx s := by
    rw [BlockExecutor.new, if_neg (not_not.mpr hvalid)]
  rw [hcandidate, expireCommits, if_pos hpositive, ← sub_le_iff hle]
  dsimp only
  rw [OrdMap.find?_filter, and_iff_right h.pending, Bool.not_eq_true', Bool.and_eq_false_iff,
    decide_eq_false_iff_not, decide_eq_false_iff_not, gt_iff_lt, gt_iff_lt, UInt64.not_lt, UInt64.not_lt]
  constructor
  · rintro (hyoung | hage)
    · rw [UInt64.le_antisymm hyoung hle, UInt64.sub_self]
      exact UInt64.zero_le
    · exact hage
  · exact .inr

variable {blockHeight : UInt64}

/-- The height plays a part in the check of its work epoch only. -/
theorem validateAccountCreateOp_iff {op : AccountCreateOp} {height : UInt64}
    (h : validateAccountCreateOp op networkBinding height params = .none) :
    validateAccountCreateOp op networkBinding blockHeight params = .none ↔
      op.work.workEpoch ≤ epochForHeight blockHeight params ∧
        epochForHeight blockHeight params - op.work.workEpoch ≤ params.accountCreationEpochLag := by
  obtain ⟨hserialize, hkem, hnull, hnetwork, haccount, packageId, hpackage, hcommitment, -, -, hwork⟩ :=
    validateAccountCreateOp_eq_none.mp h
  constructor
  · intro hvalid
    obtain ⟨-, -, -, -, -, _, -, -, hfuture, hexpired, -⟩ := validateAccountCreateOp_eq_none.mp hvalid
    exact ⟨hfuture, hexpired⟩
  · rintro ⟨hfuture, hexpired⟩
    exact validateAccountCreateOp_eq_none.mpr ⟨hserialize, hkem, hnull, hnetwork, haccount, packageId, hpackage,
      hcommitment, hfuture, hexpired, hwork⟩

omit [Crypto] in
theorem inWorkWindow_iff {workEpoch : UInt64} :
    InWorkWindow blockHeight params workEpoch ↔ workEpoch ≤ epochForHeight blockHeight params ∧
      epochForHeight blockHeight params - workEpoch ≤ params.accountCreationEpochLag := by
  rw [InWorkWindow, and_comm]
  refine and_congr_right fun hle => ?_
  rw [sub_le_iff hle]
  rw [UInt64.le_iff_toNat_le] at hle
  omega

theorem RevealReady.nameWorkAccepted_iff
    (h : RevealReady op networkBinding params s record) (blockHeight : UInt64) :
    nameWorkAccepted op networkBinding blockHeight params = true ↔
      op.reveal.work.workEpoch ≤ epochForHeight blockHeight params ∧
        epochForHeight blockHeight params ≤ op.reveal.work.workEpoch + params.accountCreationEpochLag := by
  simp only [nameWorkAccepted, h.network, h.workAccount, h.work, Bool.and_true, decide_true, Bool.true_and,
    Bool.and_eq_true, decide_eq_true_eq]

/-- **A reveal is held to the exact window of epochs unless the sum wraps.** -/
theorem RevealReady.epoch_iff (h : RevealReady op networkBinding params s record) (blockHeight : UInt64) :
    (nameWorkAccepted op networkBinding blockHeight params = true ↔
        InWorkWindow blockHeight params op.reveal.work.workEpoch) ↔
      op.reveal.work.workEpoch.toNat + params.accountCreationEpochLag.toNat < 2 ^ 64 ∨
        epochForHeight blockHeight params < op.reveal.work.workEpoch := by
  rw [h.nameWorkAccepted_iff, InWorkWindow]
  generalize op.reveal.work.workEpoch = workEpoch
  generalize epochForHeight blockHeight params = epoch
  generalize params.accountCreationEpochLag = lag
  have hbound := epoch.toNat_lt
  by_cases hfuture : epoch < workEpoch
  · refine iff_of_true (iff_of_false ?_ ?_) (.inr hfuture)
    · exact fun hwindow => UInt64.not_lt.mpr hwindow.1 hfuture
    · exact fun hwindow => UInt64.not_lt.mpr hwindow.2 hfuture
  · have hle := UInt64.not_lt.mp hfuture
    by_cases hfits : workEpoch.toNat + lag.toNat < 2 ^ 64
    · refine iff_of_true ?_ (.inl hfits)
      rw [UInt64.le_iff_toNat_le (b := workEpoch + lag), toNat_add_of_lt hfits]
      constructor
      · rintro ⟨-, hlag⟩
        exact ⟨by omega, hle⟩
      · rintro ⟨hlag, -⟩
        exact ⟨hle, by omega⟩
    · refine iff_of_false ?_ (not_or.mpr ⟨hfits, hfuture⟩)
      intro hiff
      have haccepted := hiff.mpr ⟨by omega, hle⟩
      exact UInt64.not_lt.mpr haccepted.2 (add_lt_of_wraps hle hfits)

theorem RevealReady.run_eq_iff
    (h : RevealReady op networkBinding params s record) (blockHeight : UInt64) (answer : NameRevealError) :
    (∃ s', applyNameReveal op networkBinding blockHeight params s = .ok answer s') ↔
      revealAnswer op networkBinding blockHeight params record = answer := by
  obtain ⟨s', hrun⟩ := h.answer blockHeight
  rw [hrun]
  constructor
  · rintro ⟨_, heq⟩
    exact (EStateM.Result.ok.inj heq).1
  · rintro rfl
    exact ⟨s', rfl⟩

/-- The sums of the source are exact, or the reveal is stopped at a depth whose sum is. -/
def WindowFits (blockHeight commitHeight minDepth maxLifetime : UInt64) : Prop :=
  commitHeight.toNat + maxLifetime.toNat < 2 ^ 64 ∨
    (commitHeight.toNat + minDepth.toNat < 2 ^ 64 ∧ blockHeight.toNat < commitHeight.toNat + minDepth.toNat)

omit [Crypto] in
theorem WindowFits.exact {commitHeight minDepth maxLifetime : UInt64}
    (h : WindowFits blockHeight commitHeight minDepth maxLifetime) (hle : commitHeight ≤ blockHeight)
    (hparams : minDepth ≤ maxLifetime) :
    (blockHeight < commitHeight + minDepth ↔ blockHeight.toNat - commitHeight.toNat < minDepth.toNat) ∧
      (¬blockHeight < commitHeight + minDepth → (blockHeight > commitHeight + maxLifetime ↔
        maxLifetime.toNat < blockHeight.toNat - commitHeight.toNat)) := by
  rw [UInt64.le_iff_toNat_le] at hle hparams
  have hdepth : (commitHeight + minDepth).toNat = commitHeight.toNat + minDepth.toNat := by
    refine toNat_add_of_lt ?_
    rcases h with hlifetime | ⟨hdepth, -⟩ <;> omega
  have hlow : blockHeight < commitHeight + minDepth ↔
      blockHeight.toNat - commitHeight.toNat < minDepth.toNat := by
    rw [UInt64.lt_iff_toNat_lt, hdepth]
    omega
  refine ⟨hlow, ?_⟩
  intro hdeep
  rw [UInt64.lt_iff_toNat_lt, hdepth] at hdeep
  rcases h with hlifetime | ⟨-, hshallow⟩
  · rw [gt_iff_lt, UInt64.lt_iff_toNat_lt, toNat_add_of_lt hlifetime]
    omega
  · exact absurd hshallow hdeep

omit [Crypto] in
theorem WindowFits.expired_of_not {commitHeight minDepth maxLifetime : UInt64}
    (h : ¬WindowFits blockHeight commitHeight minDepth maxLifetime) (hle : commitHeight ≤ blockHeight) :
    ¬blockHeight < commitHeight + minDepth ∧ blockHeight > commitHeight + maxLifetime ∧
      blockHeight.toNat - commitHeight.toNat ≤ maxLifetime.toNat := by
  rw [WindowFits, not_or] at h
  obtain ⟨hlifetime, hdepth⟩ := h
  have hbound := blockHeight.toNat_lt
  have hexpired := add_lt_of_wraps hle hlifetime
  refine ⟨?_, hexpired, by omega⟩
  by_cases hfits : commitHeight.toNat + minDepth.toNat < 2 ^ 64
  · rw [UInt64.lt_iff_toNat_lt, toNat_add_of_lt hfits]
    exact fun hshallow => hdepth ⟨hfits, hshallow⟩
  · exact UInt64.not_lt.mpr (UInt64.le_of_lt (add_lt_of_wraps hle hfits))

/-- **The windows are exact just where the sums that bound them do not wrap.** -/
theorem name_window_iff {ctx : BlockContext} {s : CybouState} {op : AuthorizedNameReveal}
    {record : NameCommitRecord} (hparams : validateProtocolParameters ctx.params = true)
    (hvalid : validateCybouState s = .none) (hready : RevealReady op ctx.networkBinding ctx.params s record)
    (hle : record.commitHeight ≤ ctx.blockHeight) :
    NameWindow ctx s op record ↔
      WindowFits ctx.blockHeight record.commitHeight ctx.params.nameCommitMinDepth
        ctx.params.nameCommitMaxLifetime ∧
      (op.reveal.work.workEpoch.toNat + ctx.params.accountCreationEpochLag.toNat < 2 ^ 64 ∨
        epochForHeight ctx.blockHeight ctx.params < op.reveal.work.workEpoch) := by
  have hcandidate := hready.candidate hparams hvalid hle
  have hexpired := hready.run_eq_iff ctx.blockHeight .commitExpired
  constructor
  · intro h
    refine ⟨?_, (hready.epoch_iff ctx.blockHeight).mp h.epoch⟩
    by_contra hnot
    obtain ⟨hdeep, hlate, hage⟩ := WindowFits.expired_of_not hnot hle
    obtain ⟨s', hrun⟩ := hexpired.mpr (by rw [revealAnswer, if_neg hdeep, if_pos hlate])
    exact h.kept.mp (hcandidate.mpr hage) s' hrun
  · rintro ⟨hfits, hepoch⟩
    have hbounds := (validateProtocolParameters_names hparams).2
    obtain ⟨hdepth, hlifetime⟩ := hfits.exact hle hbounds
    refine ⟨?_, ?_, (hready.epoch_iff ctx.blockHeight).mpr hepoch, ?_⟩
    · rw [hcandidate, ← not_exists, hexpired, revealAnswer]
      by_cases hshallow : ctx.blockHeight < record.commitHeight + ctx.params.nameCommitMinDepth
      · rw [if_pos hshallow]
        have hyoung := hdepth.mp hshallow
        rw [UInt64.le_iff_toNat_le] at hle hbounds
        exact iff_of_true (by omega) (by decide)
      · rw [if_neg hshallow]
        by_cases hlate : ctx.blockHeight > record.commitHeight + ctx.params.nameCommitMaxLifetime
        · rw [if_pos hlate]
          exact iff_of_false (Nat.not_le.mpr ((hlifetime hshallow).mp hlate)) (not_not.mpr rfl)
        · rw [if_neg hlate]
          refine iff_of_true (Nat.not_lt.mp (mt (hlifetime hshallow).mpr hlate)) ?_
          split <;> decide
    · intro hwork
      rw [hready.run_eq_iff, revealAnswer]
      by_cases hshallow : ctx.blockHeight < record.commitHeight + ctx.params.nameCommitMinDepth
      · rw [if_pos hshallow]
        exact iff_of_false (by decide) fun hwindow => Nat.not_le.mpr (hdepth.mp hshallow) hwindow.1
      · rw [if_neg hshallow]
        by_cases hlate : ctx.blockHeight > record.commitHeight + ctx.params.nameCommitMaxLifetime
        · rw [if_pos hlate]
          exact iff_of_false (by decide) fun hwindow => Nat.not_le.mpr ((hlifetime hshallow).mp hlate) hwindow.2
        · rw [if_neg hlate, if_neg (by simp [hwork])]
          exact iff_of_true rfl ⟨Nat.not_lt.mp (mt hdepth.mpr hshallow),
            Nat.not_lt.mp (mt (hlifetime hshallow).mpr hlate)⟩
    · intro create height hcreate
      rw [validateAccountCreateOp_iff hcreate, inWorkWindow_iff]

end

section Sample

set_option maxRecDepth 10000

attribute [local instance] Crypto.sample

def sampleSalt : FixedBytes 32 := FixedBytes.leading 31 1

def bobbyCommitment : Hash256 :=
  computeNameCommitment (sampleId 200) (sampleId 2) (ascii "bobby") sampleSalt

/-- `sampleState` before account 2 got its name: it has a commit of height 1. -/
def namingState : CybouState :=
  { sampleState with
    names :=
      { names := (∅ : OrdMap _ _).set (ascii "alice") (sampleId 1)
        accountNames := (∅ : OrdMap _ _).set (sampleId 1) (ascii "alice")
        pendingCommits := (∅ : OrdMap _ _).set bobbyCommitment { accountId := sampleId 2, commitHeight := 1 } } }

def bobbyReveal : AuthorizedNameReveal :=
  let reveal : NameRevealPayload :=
    { label := ascii "bobby", salt := sampleSalt
      work :=
        { networkBinding := sampleId 200, accountId := sampleId 2, commitment := bobbyCommitment
          workEpoch := 0, nonce := 0 } }
  { authorization :=
      { accountId := sampleId 2, nonce := 0, keyEpoch := 0, kind := .nameReveal
        payloadCommitment := (computeNameRevealPayloadCommitment reveal).getD Hash256.ZERO
        signature := sampleSignature }
    reveal }

/-- A block of height 2 in a network whose commits live for `maxLifetime` blocks. -/
def namingContext (maxLifetime : UInt64) : BlockContext :=
  { sampleContext with
    blockHeight := 2
    params := { devProtocolParameters with nameClaimWorkBits := 0, nameCommitMaxLifetime := maxLifetime } }

theorem valid_namingState : validateCybouState namingState = .none := by decide

theorem ready_bobbyReveal (maxLifetime : UInt64) : RevealReady bobbyReveal (namingContext maxLifetime).networkBinding
    (namingContext maxLifetime).params namingState { accountId := sampleId 2, commitHeight := 1 } := by
  have hchecks : computeNameRevealPayloadCommitment bobbyReveal.reveal =
        some bobbyReveal.authorization.payloadCommitment ∧
      validateNameLabel bobbyReveal.reveal.label = .none ∧
      namingState.accounts.contains (sampleId 2) = true ∧
      namingState.names.accountNames.contains (sampleId 2) = false ∧
      namingState.names.names.contains (ascii "bobby") = false ∧
      (namingState.genesisAllocations.entries.any fun e => decide (e.2.label = ascii "bobby")) = false ∧
      (namingState.identities.authorizeOperation bobbyReveal.authorization (sampleId 200)).1 = .none := by
    decide
  obtain ⟨hpayload, hlabel, haccount, hunnamed, hfree, hunreserved, hauthorized⟩ := hchecks
  exact
    { kind := rfl, payload := hpayload, label := hlabel, account := haccount, unnamed := hunnamed
      free := hfree, unreserved := hunreserved, commitment := rfl, pending := OrdMap.find?_set_self ..
      owner := rfl, network := rfl, workAccount := rfl, work := rfl, authorized := hauthorized }

theorem name_window_iff_bobbyReveal :
    NameWindow (namingContext 1000) namingState bobbyReveal { accountId := sampleId 2, commitHeight := 1 } :=
  (name_window_iff (by decide) valid_namingState (ready_bobbyReveal 1000) (by decide)).mpr
    ⟨.inl (by decide), .inl (by decide)⟩

/-- With the longest lifetime the commit is kept, and its reveal is told that it
    expired. -/
theorem name_window_wraps : validateProtocolParameters (namingContext UINT64_MAX).params = true ∧
    validateCybouState namingState = .none ∧
    RevealReady bobbyReveal (namingContext UINT64_MAX).networkBinding (namingContext UINT64_MAX).params
      namingState { accountId := sampleId 2, commitHeight := 1 } ∧
    ¬NameWindow (namingContext UINT64_MAX) namingState bobbyReveal
      { accountId := sampleId 2, commitHeight := 1 } := by
  have hparams : validateProtocolParameters (namingContext UINT64_MAX).params = true := by decide
  have hready := ready_bobbyReveal UINT64_MAX
  refine ⟨hparams, valid_namingState, hready, ?_⟩
  intro hwindow
  have hkept := (hready.candidate hparams valid_namingState (by decide)).mpr (by decide)
  obtain ⟨s', hrun⟩ := (hready.run_eq_iff 2 .commitExpired).mpr rfl
  exact hwindow.kept.mp hkept s' hrun

end Sample

end Cybou

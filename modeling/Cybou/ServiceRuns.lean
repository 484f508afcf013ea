import Cybou.EvidenceRuns
import Cybou.ServiceObservation

/-! # Service is credited between two successes in a row (`storage_assignment_observation_store.cpp`)

An attempt is a call whose intent became durable: only then is the provider asked.
The checkpoint remembers the newest attempt and whether it succeeded
(`Remembers`), whatever broke off in between, so a completion finds a last success
only if the attempt before it is one.  `ServiceInvariant` is kept by every step,
and `service_credit` reads off it that the credited intervals are those that
`Credited` gives for the attempts.
-/

namespace Cybou

open Library

/-! ### Calls, one after the other -/

/-- A call whose intent became durable. -/
structure ServiceAttempt where
  time : UInt64
  term : EvidenceTerm
  succeeded : Bool
deriving DecidableEq

/-- The rows, the call that waits for its provider, and the attempts, the newest first. -/
structure ServiceState where
  rows : Store Bytes ApplicationRow
  running : Option (ServiceRequest × ServiceIntent)
  attempts : List ServiceAttempt

def succeed : List ServiceAttempt → List ServiceAttempt
  | [] => []
  | a :: earlier => { a with succeeded := true } :: earlier

def StorageAssignmentPlan.fundedSlot (plan : StorageAssignmentPlan) (slot : UInt8) : FundedSlot :=
  let c := plan.context
  { networkBinding := c.networkBinding, publication := c.publication, chunk := c.chunk, payer := c.payer
    termStart := c.termStart, termEnd := c.termEnd, replicaSlot := slot }

def StorageAssignmentPlan.checkpointKey (plan : StorageAssignmentPlan) (slot : UInt8) : Bytes :=
  serviceCheckpointKey (observationPrefix plan.commitment slot)

section

variable [Crypto]

namespace ServiceState

/-- The first batch of a call, with the fate of its commit. -/
def prepare (s : ServiceState) (r : ServiceRequest) (phase : ServicePhase) : ServiceState :=
  match prepareService r phase { unlocked := phase.unlocked, rows := s.rows } with
  | .answered _ => s
  | .intended intent =>
    let intended := { s with
      rows := s.rows.apply [.put r.checkpointKey (.value intent.bytes)]
      attempts := { time := r.time, term := r.scope.term, succeeded := false } :: s.attempts }
    match phase.fate with
    | .lost => s
    | .stored => intended
    | .done => { intended with running := some (r, intent) }

/-- The network call and the second batch; `observe` is what comes back, with and without a
    full retrieval. -/
def complete (s : ServiceState) (phase : ServicePhase) (observe : Bool → Option StorageAssignmentObservation) :
    ServiceState :=
  match s.running with
  | none => s
  | some (r, intent) =>
    match completeService r phase { unlocked := phase.unlocked, rows := s.rows } intent
      (observe (r.forceFull || requiredGet intent.prior)) with
    | .thrown | .refused => { s with running := none }
    | .commits rows record =>
      match phase.fate with
      | .lost => { s with running := none }
      | .stored | .done =>
        { rows, running := none, attempts := if record.isSome = true then succeed s.attempts else s.attempts }

theorem prepare_lost {s : ServiceState} {r : ServiceRequest} {phase : ServicePhase} (h : phase.fate = .lost) :
    s.prepare r phase = s := by
  unfold prepare
  split
  · rfl
  · rw [h]

end ServiceState

/-- Calls for one assignment and slot, one after the other, each of which may break off
    anywhere.  They start where nothing has been observed; the journals of the funded slot
    may hold the claims of other assignments, which may go on, and so may everything else in
    the store. -/
inductive ServiceRun (plan : StorageAssignmentPlan) (slot : UInt8) : ServiceState → Prop where
  | start {rows : Store Bytes ApplicationRow} (hplan : plan.Prepared)
      (hjournals : EvidenceRun (plan.fundedSlot slot) rows) (hown : rows (evidenceKey plan.commitment slot) = none)
      (hfresh : rows (plan.checkpointKey slot) = none) :
      ServiceRun plan slot { rows, running := none, attempts := [] }
  | elsewhere {s : ServiceState} {rows : Store Bytes ApplicationRow} (hrun : ServiceRun plan slot s)
      (hjournals : ∀ name, (plan.fundedSlot slot).Names name → rows name = s.rows name)
      (hcheckpoint : rows (plan.checkpointKey slot) = s.rows (plan.checkpointKey slot)) :
      ServiceRun plan slot { s with rows }
  | other {s : ServiceState} {unlocked : Bool} {scope : StorageAssignmentEvidenceScope}
      {interval : StorageAssignmentInterval} {verifiedThroughUtc : UInt64} {fate : Fate}
      (hrun : ServiceRun plan slot s) (hslot : scope.fundedSlot = plan.fundedSlot slot)
      (hother : scope.assignment.commitment ≠ plan.commitment) :
      ServiceRun plan slot { s with
        rows := (appendStorageAssignmentEvidence { unlocked, rows := s.rows } scope interval verifiedThroughUtc
          fate).2 }
  | prepare {s : ServiceState} {r : ServiceRequest} {phase : ServicePhase} (hrun : ServiceRun plan slot s)
      (hidle : s.running = none) (hplan : r.plan = plan) (hslot : r.slot = slot) :
      ServiceRun plan slot (s.prepare r phase)
  | complete {s : ServiceState} {phase : ServicePhase} {observe : Bool → Option StorageAssignmentObservation}
      (hrun : ServiceRun plan slot s) : ServiceRun plan slot (s.complete phase observe)
  | crash {s : ServiceState} (hrun : ServiceRun plan slot s) : ServiceRun plan slot { s with running := none }

end

/-! ### What the attempts earn -/

/-- The intervals cut a span of time at the ends of the periods. -/
def EvidenceTerm.Cuts (t : EvidenceTerm) (start stop : UInt64) (intervals : List StorageAssignmentInterval) : Prop :=
  Cut StorageAssignmentInterval.start StorageAssignmentInterval.stop t.cell t.termStartUtc.toNat
    t.periodSeconds.toNat stop.toNat start.toNat intervals

/-- Two attempts that succeeded and are not too far apart. -/
def Bridges (a b : ServiceAttempt) : Prop :=
  a.succeeded = true ∧ b.succeeded = true ∧ b.time - a.time ≤ STORAGE_ASSIGNMENT_MAX_SERVICE_GAP_SECONDS

instance (a b : ServiceAttempt) : Decidable (Bridges a b) := by
  unfold Bridges
  infer_instance

def Credited : List ServiceAttempt → List StorageAssignmentInterval → Prop
  | b :: a :: earlier, intervals => ∃ before cut, intervals = before ++ cut ∧ Credited (a :: earlier) before ∧
      if Bridges a b then b.term.Cuts a.time b.time cut else cut = []
  | _, intervals => intervals = []

def spanSeconds : List ServiceAttempt → Nat
  | b :: a :: earlier =>
    spanSeconds (a :: earlier) + if Bridges a b then b.time.toNat - a.time.toNat else 0
  | _ => 0

def Increasing (attempts : List ServiceAttempt) : Prop := attempts.Pairwise fun b a => a.time < b.time

namespace Credited

variable {attempts earlier : List ServiceAttempt} {a : ServiceAttempt} {intervals : List StorageAssignmentInterval}

theorem failed_iff (h : a.succeeded = false) : Credited (a :: earlier) intervals ↔ Credited earlier intervals := by
  have hbridge : ∀ b, ¬Bridges b a := by
    rintro b ⟨-, hsucceeded, -⟩
    cases h.symm.trans hsucceeded
  cases earlier with
  | nil => exact Iff.rfl
  | cons b earlier =>
    rw [Credited]
    constructor
    · rintro ⟨before, cut, rfl, hbefore, hcut⟩
      rw [if_neg (hbridge b)] at hcut
      rw [hcut, List.append_nil]
      exact hbefore
    · intro hcredited
      refine ⟨intervals, [], (List.append_nil _).symm, hcredited, ?_⟩
      rw [if_neg (hbridge b)]

theorem bounds (h : Credited (a :: earlier) intervals) (hincreasing : Increasing (a :: earlier)) :
    ∀ interval ∈ intervals, interval.start < interval.stop ∧ interval.stop ≤ a.time.toNat := by
  induction earlier generalizing a intervals with
  | nil =>
    rw [show intervals = [] from h]
    exact fun _ => nofun
  | cons b earlier ih =>
    obtain ⟨before, cut, rfl, hbefore, hcut⟩ := h
    obtain ⟨hnewest, hrest⟩ := List.pairwise_cons.mp hincreasing
    have hlt := UInt64.lt_iff_toNat_lt.mp (hnewest b List.mem_cons_self)
    intro interval hinterval
    rcases List.mem_append.mp hinterval with hinterval | hinterval
    · obtain ⟨hproper, hstop⟩ := ih hbefore hrest interval hinterval
      exact ⟨hproper, by omega⟩
    · split at hcut
      · obtain ⟨-, hproper, hstop, -⟩ := Cut.mem hcut hinterval
        exact ⟨hproper, hstop⟩
      · rw [hcut] at hinterval
        cases hinterval

/-- **No credited interval spans an attempt**, nor touches one that has not succeeded. -/
theorem unspanned (h : Credited attempts intervals) (hincreasing : Increasing attempts) :
    ∀ interval ∈ intervals, ∀ a ∈ attempts,
      (a.time.toNat ≤ interval.start ∨ interval.stop ≤ a.time.toNat) ∧
      (a.succeeded = false → a.time.toNat < interval.start ∨ interval.stop < a.time.toNat) := by
  induction attempts generalizing intervals with
  | nil =>
    rw [show intervals = [] from h]
    exact fun _ => nofun
  | cons b rest ih =>
    cases rest with
    | nil =>
      rw [show intervals = [] from h]
      exact fun _ => nofun
    | cons a earlier =>
      obtain ⟨before, cut, rfl, hbefore, hcut⟩ := h
      obtain ⟨hnewest, hrest⟩ := List.pairwise_cons.mp hincreasing
      have hlt := UInt64.lt_iff_toNat_lt.mp (hnewest a List.mem_cons_self)
      intro interval hinterval c hc
      rcases List.mem_append.mp hinterval with hinterval | hinterval
      · obtain ⟨-, hstop⟩ := bounds hbefore hrest interval hinterval
        rcases List.mem_cons.mp hc with rfl | hc
        · exact ⟨.inr (by omega), fun _ => .inr (by omega)⟩
        · exact ih hbefore hrest interval hinterval c hc
      · split at hcut
        · next hbridge =>
          obtain ⟨hstart, -, hstop, -⟩ := Cut.mem hcut hinterval
          rcases List.mem_cons.mp hc with rfl | hc
          · refine ⟨.inr hstop, fun hfailed => ?_⟩
            cases hfailed.symm.trans hbridge.2.1
          rcases List.mem_cons.mp hc with rfl | hc
          · refine ⟨.inl hstart, fun hfailed => ?_⟩
            cases hfailed.symm.trans hbridge.1
          · have hearlier := UInt64.lt_iff_toNat_lt.mp ((List.pairwise_cons.mp hrest).1 c hc)
            exact ⟨.inl (by omega), fun _ => .inl (by omega)⟩
        · rw [hcut] at hinterval
          cases hinterval

theorem totalSeconds (h : Credited attempts intervals) : Cybou.totalSeconds intervals = spanSeconds attempts := by
  induction attempts generalizing intervals with
  | nil =>
    rw [show intervals = [] from h]
    rfl
  | cons b rest ih =>
    cases rest with
    | nil =>
      rw [show intervals = [] from h]
      rfl
    | cons a earlier =>
      obtain ⟨before, cut, rfl, hbefore, hcut⟩ := h
      have hsum : Cybou.totalSeconds (before ++ cut) = Cybou.totalSeconds before + Cybou.totalSeconds cut := by
        rw [Cybou.totalSeconds, covered, List.map_append, List.sum_append]
        rfl
      rw [hsum, ih hbefore, spanSeconds]
      split at hcut
      · next hbridge =>
        rw [if_pos hbridge]
        exact congrArg _ (Cut.covered hcut)
      · next hbridge =>
        rw [if_neg hbridge, hcut]
        rfl

end Credited

/-! ### The checkpoint -/

theorem readCheckpoint_exact : Reader.Exact readCheckpoint encodeCheckpoint fun _ => True := by
  intro b c r
  simp only [readCheckpoint, Reader.u64_exact.bind, readFlag_exact.bind, Reader.pure_eq_some, true_and]
  constructor
  · rintro ⟨_, _, rfl, _, _, rfl, _, _, rfl, _, _, rfl, _, _, rfl, _, _, rfl, rfl, rfl⟩
    simp [encodeCheckpoint]
  · rintro rfl
    exact ⟨c.anchor, _, by simp [encodeCheckpoint], c.seconds, _, rfl, c.lastAttempt, _, rfl, c.lastSuccess, _, rfl,
      c.successes, _, rfl, c.pending, _, rfl, rfl, rfl⟩

theorem decodeCheckpoint_encodeCheckpoint {c : ServiceCheckpoint} (h : c.Valid) :
    decodeCheckpoint (encodeCheckpoint c) = some c := by
  have hlength : (encodeCheckpoint c).length = 41 := by simp [encodeCheckpoint, writeFlag]
  have hread : readBinary BINARY_LIMIT readCheckpoint (encodeCheckpoint c) = some c := by
    rw [readBinary, if_neg (by rw [hlength, BINARY_LIMIT]; omega), Reader.whole_eq_some]
    exact (readCheckpoint_exact _ _ _).mpr ⟨trivial, (List.append_nil _).symm⟩
  rw [decodeCheckpoint, hread, Option.filter_some, if_pos (decide_eq_true h)]

def Remembers : List ServiceAttempt → ServiceCheckpoint → Prop
  | [], c => c.lastAttempt = 0 ∧ c.lastSuccess = 0
  | a :: _, c => c.anchor = a.term.termStartUtc ∧ c.seconds = a.term.periodSeconds ∧ c.lastAttempt = a.time ∧
      c.lastSuccess = if a.succeeded = true then a.time else 0

def Checkpointed (attempts : List ServiceAttempt) (row : Option ApplicationRow) : Prop :=
  (attempts = [] ∧ row = none) ∨
    (attempts ≠ [] ∧ ∃ c : ServiceCheckpoint, row = some (.value (encodeCheckpoint c)) ∧ c.Valid ∧ Remembers attempts c)

/-! ### Names -/

section

variable [Crypto]

theorem FundedSlot.not_names_observation (slot : FundedSlot) (commitment : FixedBytes 32) (replicaSlot : UInt8)
    (rest : Bytes) : ¬slot.Names (observationPrefix commitment replicaSlot ++ rest) := by
  rintro (heq | heq | ⟨owner, -, heq⟩)
  · simp only [observationPrefix, FundedSlot.key, List.append_assoc] at heq
    exact prefix_ne 20 (by decide) (by decide) (by decide) heq
  · simp only [observationPrefix, FundedSlot.initializedKey, FundedSlot.key, List.append_assoc] at heq
    exact prefix_ne 20 (by decide) (by decide) (by decide) heq
  · simp only [observationPrefix, evidenceKey, List.append_assoc] at heq
    exact prefix_ne 20 (by decide) (by decide) (by decide) heq

theorem EvidenceTerm.Journal.observed {t : EvidenceTerm} {rows : Store Bytes ApplicationRow}
    {claims : List StorageFundedSlotClaim} {edits : List (Edit Bytes ApplicationRow)} {commitment : FixedBytes 32}
    {replicaSlot : UInt8} (h : t.Journal rows claims)
    (hedits : ∀ e ∈ edits, ∃ rest, e.key = observationPrefix commitment replicaSlot ++ rest) :
    t.Journal (rows.apply edits) claims := by
  refine h.congr fun name hname => Store.apply_of_forall_ne ?_
  rintro e he rfl
  obtain ⟨rest, hrest⟩ := hedits e he
  rw [hrest] at hname
  exact t.slot.not_names_observation commitment replicaSlot rest hname

/-! ### The crediting loop -/

variable {t : EvidenceTerm}

variable {interval : StorageAssignmentInterval}

omit [Crypto] in
theorem toNat_sliceEnd (hbounded : t.Bounded)
    {time offset : UInt64} (hadmits : t.admits interval = true) (hperiod : interval.period = t.slot.termStart + offset)
    (hend : interval.endUtc = min time (t.termStartUtc + (offset + 1) * t.periodSeconds)) :
    interval.stop = min time.toNat (t.termStartUtc.toNat + (t.cell interval + 1) * t.periodSeconds.toNat) := by
  obtain ⟨hcell, -⟩ := hbounded.cell_of_admits hadmits
  have hfirst : t.slot.termStart ≤ interval.period := by
    simp only [EvidenceTerm.admits, EvidenceTerm.inPeriod, Bool.and_eq_true, decide_eq_true_eq] at hadmits
    exact hadmits.1.1.1.1.1
  have hoffset : offset.toNat = t.cell interval := by
    have hsub := UInt64.toNat_sub_of_le _ _ hfirst
    rw [hperiod, UInt64.add_comm, UInt64.add_sub_cancel] at hsub
    rw [hsub, EvidenceTerm.cell, hperiod, UInt64.add_comm]
  have hlimit : t.periods < 2 ^ 64 := by
    have hlt := t.slot.termEnd.toNat_lt
    rw [EvidenceTerm.periods]
    omega
  have hnext : (offset + 1).toNat = t.cell interval + 1 := by
    rw [UInt64.toNat_add, hoffset, UInt64.toNat_one]
    exact Nat.mod_eq_of_lt (by omega)
  rw [StorageAssignmentInterval.stop, hend, UInt64.toNat_min, hbounded.toNat_line (by omega), hnext]

variable {claims : List StorageFundedSlotClaim} {db : PrivateApplicationStore}
  {rows : Store Bytes ApplicationRow}

variable {scope : StorageAssignmentEvidenceScope}

theorem EvidenceTerm.Journal.appended_last (h : t.Journal db.rows claims)
    (hslot : scope.fundedSlot = t.slot) {verifiedThroughUtc : UInt64} {fate : Fate}
    (hbelow : ∀ i ∈ ownedIntervals scope.assignment.commitment claims, i.startUtc < interval.startUtc)
    (happend : appendStorageAssignmentEvidence db scope interval verifiedThroughUtc fate = (some .added, rows)) :
    ∃ claims', scope.term.Bounded ∧ scope.term.admits interval = true ∧ scope.term.Journal rows claims' ∧
      ownedIntervals scope.assignment.commitment claims' =
        ownedIntervals scope.assignment.commitment claims ++ [interval] := by
  obtain ⟨hbounded, -, hbefore, hadmits, hafter⟩ := h.appended hslot (append_added happend)
  refine ⟨_, hbounded, hadmits, hafter, ?_⟩
  rw [ownedIntervals_insertClaim hbounded hbefore.lawful, if_pos rfl, insertInterval]
  exact insertBefore_of_forall fun i hi => decide_eq_true (hbelow i hi)

/-- The rows after the crediting loop: the assignment's own intervals have grown by a cut of
    the time since `start`. -/
def SlicesCredited (r : ServiceRequest) (t : EvidenceTerm) (claims : List StorageFundedSlotClaim) (start : UInt64)
    (rows : Store Bytes ApplicationRow) : Prop :=
  ∃ t' claims' cut, EvidenceTerm.Journal t' rows claims' ∧ t'.slot = t.slot ∧
    ownedIntervals r.scope.assignment.commitment claims' =
      ownedIntervals r.scope.assignment.commitment claims ++ cut ∧
    r.scope.term.Cuts start r.time cut ∧ t' = if cut = [] then t else r.scope.term

variable {r : ServiceRequest}

theorem SlicesCredited.done {start : UInt64} (h : t.Journal rows claims) (hle : start ≤ r.time)
    (hlate : ¬start < r.time) : SlicesCredited r t claims start rows := by
  have hsame : start = r.time := UInt64.le_antisymm hle (UInt64.not_lt.mp hlate)
  exact ⟨t, claims, [], h, rfl, (List.append_nil _).symm, congrArg UInt64.toNat hsame, rfl⟩

variable {encoded : Bytes}

/-- **Every turn records one item of the cut.** -/
theorem creditSlices_spec {unlocked : Bool} {previousTime : UInt64}
    {previousRecord : Bytes} {turns : Nat} {start : UInt64} {rows' : Store Bytes ApplicationRow}
    (h : t.Journal rows claims) (hslot : r.scope.fundedSlot = t.slot)
    (hbelow : ∀ i ∈ ownedIntervals r.scope.assignment.commitment claims, i.startUtc < start) (hle : start ≤ r.time)
    (hrun : creditSlices r unlocked previousTime previousRecord encoded turns start rows = .credited rows') :
    SlicesCredited r t claims start rows' := by
  induction turns generalizing start rows t claims with
  | zero =>
    rw [creditSlices] at hrun
    split at hrun
    · cases hrun
    · next hlate =>
      cases hrun
      exact .done h hle hlate
  | succ turns ih =>
    rw [creditSlices] at hrun
    split at hrun
    case isFalse hlate =>
      cases hrun
      exact .done h hle hlate
    next hearly =>
    dsimp only at hrun
    split at hrun
    · cases hrun
    next proof hproof =>
    split at hrun
    · cases hrun
    split at hrun
    · cases hrun
    case h_3 => cases hrun
    next rows₁ happend =>
    generalize hoffset : (start - r.scope.termStartUtc) / r.scope.periodSeconds = offset at happend hrun
    generalize hstop : min r.time (r.scope.termStartUtc + (offset + 1) * r.scope.periodSeconds) = stop at happend hrun
    generalize hcommitment : Crypto.sha256 proof = proofCommitment at happend hrun
    have hput := @EvidenceTerm.Journal.observed _ t rows claims [.put (intervalProofKey r.base proofCommitment) (.value
      (intervalPair r.scope previousTime r.time (r.scope.assignment.context.termStart + offset) start stop))]
      r.plan.commitment r.slot h (List.forall_mem_singleton.mpr ⟨_, List.append_assoc _ _ _⟩)
    obtain ⟨claims₁, hbounded, hadmits, hjournal, howned⟩ := hput.appended_last hslot hbelow happend
    obtain ⟨-, hproper, hline, -⟩ := hbounded.cell_of_admits hadmits
    have hend := toNat_sliceEnd hbounded hadmits rfl hstop.symm
    have hlt : start < stop := UInt64.lt_iff_toNat_lt.mpr hproper
    have hstople : stop ≤ r.time := by
      rw [UInt64.le_iff_toNat_le]
      exact Nat.le_trans (Nat.le_of_eq hend) (Nat.min_le_left _ _)
    obtain ⟨t', claims', cut, hjournal', hslot', howned', hcut, hterm⟩ := ih hjournal rfl (by
      intro i hi
      rw [howned] at hi
      rcases List.mem_append.mp hi with hi | hi
      · exact UInt64.lt_trans (hbelow i hi) hlt
      · rw [List.mem_singleton.mp hi]
        exact hlt) hstople hrun
    refine ⟨t', claims', _ :: cut, hjournal', hslot'.trans hslot, ?_, ⟨rfl, hproper, hline, hend, hcut⟩, ?_⟩
    · rw [howned', howned, List.append_assoc]
      rfl
    · rw [if_neg (List.cons_ne_nil _ _), hterm]
      split
      · rfl
      · rfl

/-! ### The invariant -/

def Earned (plan : StorageAssignmentPlan) (slot : UInt8) (rows : Store Bytes ApplicationRow)
    (attempts : List ServiceAttempt) : Prop :=
  ∃ t claims, EvidenceTerm.slot t = plan.fundedSlot slot ∧ t.Journal rows claims ∧
    Credited attempts (ownedIntervals plan.commitment claims) ∧
    (ownedIntervals plan.commitment claims ≠ [] → ∀ a ∈ attempts, a.term = t)

/-- The call that waits for its provider: its attempt is the newest one, and what it knows of
    the attempts before is right. -/
structure Underway (plan : StorageAssignmentPlan) (slot : UInt8) (attempts : List ServiceAttempt)
    (r : ServiceRequest) (intent : ServiceIntent) : Prop where
  ofPlan : r.plan = plan
  ofSlot : r.slot = slot
  assignment : r.scope.assignment = plan
  replicaSlot : r.scope.replicaSlot = slot
  time : r.time ≠ 0
  termStart : r.scope.termStartUtc ≠ 0
  period : r.scope.periodSeconds ≠ 0
  anchor : intent.prior.anchor = r.scope.termStartUtc
  seconds : intent.prior.seconds = r.scope.periodSeconds
  prior : ∃ earlier, attempts = { time := r.time, term := r.scope.term, succeeded := false } :: earlier ∧
    Remembers earlier intent.prior

/-- **What holds after every step.** -/
structure ServiceInvariant (plan : StorageAssignmentPlan) (slot : UInt8) (s : ServiceState) : Prop where
  prepared : plan.Prepared
  earned : Earned plan slot s.rows s.attempts
  increasing : Increasing s.attempts
  clock : ∀ a ∈ s.attempts, ∀ b ∈ s.attempts, a.term = b.term
  terms : ∀ a ∈ s.attempts, a.term.slot = plan.fundedSlot slot ∧ a.time ≠ 0
  checkpoint : Checkpointed s.attempts (s.rows (plan.checkpointKey slot))
  running : ∀ r intent, s.running = some (r, intent) → Underway plan slot s.attempts r intent

namespace ServiceInvariant

variable {plan : StorageAssignmentPlan} {slot : UInt8} {s : ServiceState}

theorem stopped (h : ServiceInvariant plan slot s) : ServiceInvariant plan slot { s with running := none } :=
  { h with running := fun _ => nofun }

theorem elsewhere (h : ServiceInvariant plan slot s) {rows : Store Bytes ApplicationRow}
    (hjournals : ∀ name, (plan.fundedSlot slot).Names name → rows name = s.rows name)
    (hcheckpoint : rows (plan.checkpointKey slot) = s.rows (plan.checkpointKey slot)) :
    ServiceInvariant plan slot { s with rows } := by
  obtain ⟨t, claims, hslot, hjournal, hcredited⟩ := h.earned
  refine { h with earned := ⟨t, claims, hslot, hjournal.congr ?_, hcredited⟩, checkpoint := ?_ }
  · rw [hslot]
    exact hjournals
  · show Checkpointed s.attempts (rows (plan.checkpointKey slot))
    rw [hcheckpoint]
    exact h.checkpoint

end ServiceInvariant

/-! ### The first batch -/

variable {phase : ServicePhase} {intent : ServiceIntent}

/-- What an intended attempt says of its request and of the checkpoint before it. -/
theorem prepareService_intended (h : prepareService r phase db = .intended intent) :
    r.admissible = true ∧ db.canPut r.checkpointKey intent.bytes = true ∧
      intent.bytes = encodeCheckpoint (r.pendingCheckpoint intent.prior) ∧ intent.prior.lastAttempt < r.time ∧
      intent.prior.anchor = r.scope.termStartUtc ∧ intent.prior.seconds = r.scope.periodSeconds ∧
      ∃ index, r.priorCheckpoint db index = some intent.prior := by
  unfold prepareService at h
  split at h
  · cases h
  next hadmissible =>
  split at h
  · cases h
  split at h
  · cases h
  next index hindex =>
  split at h
  · cases h
  next prior hprior =>
  split at h
  · cases h
  next hagrees =>
  split at h
  · split at h
    · cases h
    · cases h
  split at h
  · cases h
  next hlate =>
  split at h
  · cases h
  dsimp only at h
  split at h
  · cases h
  next hput =>
  cases h
  rw [not_or] at hlate
  rw [Bool.not_eq_false] at hadmissible hagrees hput
  simp only [ServiceRequest.agrees, Bool.and_eq_true, decide_eq_true_eq] at hagrees
  exact ⟨hadmissible, hput, rfl, UInt64.not_le.mp hlate.1, hagrees.1.1.1, hagrees.1.1.2, index, hprior⟩

variable {attempts : List ServiceAttempt}

omit [Crypto] in
theorem remembers_prior {index : List UInt64} {prior : ServiceCheckpoint} {bytes : Bytes}
    (hrow : Checkpointed attempts (db.rows r.checkpointKey)) (hput : db.canPut r.checkpointKey bytes = true)
    (h : r.priorCheckpoint db index = some prior) : Remembers attempts prior := by
  simp only [PrivateApplicationStore.canPut, Bool.and_eq_true] at hput
  rw [ServiceRequest.priorCheckpoint] at h
  rcases hrow with ⟨rfl, hnone⟩ | ⟨hne, c, hsome, hvalid, hremembers⟩
  · rw [PrivateApplicationStore.get_of_absent hnone] at h
    dsimp only at h
    split at h
    · cases h
    · cases h
      exact ⟨rfl, rfl⟩
  · rw [PrivateApplicationStore.get_of_usable hput.2 hput.1.1 hsome] at h
    dsimp only at h
    rw [decodeCheckpoint_encodeCheckpoint hvalid] at h
    cases h
    exact hremembers

theorem admissible_scope (h : r.admissible = true) :
    r.time ≠ 0 ∧ r.scope.assignment = r.plan ∧ r.scope.replicaSlot = r.slot ∧ r.scope.termStartUtc ≠ 0 ∧
      r.scope.periodSeconds ≠ 0 := by
  simp only [ServiceRequest.admissible, Bool.and_eq_true, decide_eq_true_eq] at h
  obtain ⟨⟨⟨⟨⟨⟨⟨⟨⟨⟨⟨⟨⟨⟨htime, -⟩, -⟩, -⟩, hplan⟩, hslot⟩, hstart⟩, hseconds⟩, -⟩, -⟩, -⟩, -⟩, -⟩, -⟩, -⟩ := h
  exact ⟨htime, hplan, hslot, hstart, hseconds⟩

variable {plan : StorageAssignmentPlan} {slot : UInt8}

omit [Crypto] in
theorem checkpointKey_eq (hplan : r.plan = plan)
    (hslot : r.slot = slot) : r.checkpointKey = plan.checkpointKey slot := by
  rw [ServiceRequest.checkpointKey, ServiceRequest.base, hplan, hslot]
  rfl

omit [Crypto] in
theorem term_slot (hplan : scope.assignment = plan) (hslot : scope.replicaSlot = slot) :
    scope.fundedSlot = plan.fundedSlot slot := by
  rw [StorageAssignmentEvidenceScope.fundedSlot, hplan, hslot]
  rfl

variable {s : ServiceState}

/-- **A durable intent** is the newest attempt, and has not succeeded. -/
theorem ServiceInvariant.intended (h : ServiceInvariant plan slot s)
    (hplan : r.plan = plan) (hslot : r.slot = slot)
    (hintent : prepareService r phase { unlocked := phase.unlocked, rows := s.rows } = .intended intent) :
    ServiceInvariant plan slot
      { rows := s.rows.apply [.put r.checkpointKey (.value intent.bytes)]
        running := some (r, intent)
        attempts := { time := r.time, term := r.scope.term, succeeded := false } :: s.attempts } := by
  obtain ⟨hadmissible, hput, hbytes, hlater, hanchor, hseconds, index, hprior⟩ := prepareService_intended hintent
  obtain ⟨htime, hassignment, hreplica, hstart, hperiod⟩ := admissible_scope hadmissible
  have hkey := checkpointKey_eq hplan hslot
  have hfunded := term_slot (hassignment.trans hplan) (hreplica.trans hslot)
  have hrow := h.checkpoint
  rw [← hkey] at hrow
  have hremembers := remembers_prior hrow hput hprior
  -- the clock of the checkpoint is the clock of the attempts before
  have hclock : ∀ a ∈ s.attempts, r.scope.term = a.term ∧ a.time < r.time := by
    intro a ha
    cases hattempts : s.attempts with
    | nil =>
      rw [hattempts] at ha
      cases ha
    | cons b earlier =>
      rw [hattempts] at hremembers
      obtain ⟨hbanchor, hbseconds, hbtime, -⟩ := hremembers
      have hb : b ∈ s.attempts := by
        rw [hattempts]
        exact List.mem_cons_self
      have hterm : r.scope.term = b.term := by
        have hbslot := (h.terms b hb).1
        cases hbterm : b.term with
        | mk funded start seconds =>
          rw [hbterm] at hbanchor hbseconds hbslot
          rw [StorageAssignmentEvidenceScope.term, hfunded, ← hanchor, ← hseconds, hbanchor, hbseconds, ← hbslot]
      refine ⟨hterm.trans (h.clock b hb a ha), ?_⟩
      have hincreasing := h.increasing
      rw [hattempts] at ha hincreasing
      rw [hbtime] at hlater
      rcases List.mem_cons.mp ha with rfl | ha
      · exact hlater
      · exact UInt64.lt_trans ((List.pairwise_cons.mp hincreasing).1 a ha) hlater
  refine
    { prepared := h.prepared
      earned := ?_
      increasing := List.pairwise_cons.mpr ⟨fun a ha => (hclock a ha).2, h.increasing⟩
      clock := ?_
      terms := List.forall_mem_cons.mpr ⟨⟨hfunded, htime⟩, h.terms⟩
      checkpoint := .inr ⟨List.cons_ne_nil _ _, r.pendingCheckpoint intent.prior, ?_, ?_, ?_⟩
      running := ?_ }
  · obtain ⟨t, claims, hslot', hjournal, hcredited, hterm⟩ := h.earned
    refine ⟨t, claims, hslot', ?_, (Credited.failed_iff rfl).mpr hcredited, ?_⟩
    · exact @EvidenceTerm.Journal.observed _ t s.rows claims _ r.plan.commitment r.slot hjournal
        (List.forall_mem_singleton.mpr ⟨_, rfl⟩)
    · intro hne
      refine List.forall_mem_cons.mpr ⟨?_, hterm hne⟩
      cases hattempts : s.attempts with
      | nil =>
        rw [hattempts] at hcredited
        exact absurd hcredited hne
      | cons b earlier =>
        have hb : b ∈ s.attempts := by
          rw [hattempts]
          exact List.mem_cons_self
        exact (hclock b hb).1.trans (hterm hne b hb)
  · refine List.forall_mem_cons.mpr ⟨List.forall_mem_cons.mpr ⟨rfl, fun b hb => (hclock b hb).1⟩, ?_⟩
    intro a ha
    exact List.forall_mem_cons.mpr ⟨(hclock a ha).1.symm, h.clock a ha⟩
  · rw [← hkey, ← hbytes]
    exact Function.update_self ..
  · refine ⟨?_, ?_, htime, UInt64.zero_le, fun hbad => hbad.2 rfl⟩
    · show intent.prior.anchor ≠ 0
      rw [hanchor]
      exact hstart
    · show intent.prior.seconds ≠ 0
      rw [hseconds]
      exact hperiod
  · exact ⟨hanchor, hseconds, rfl, rfl⟩
  · rintro r' intent' ⟨⟩
    exact { ofPlan := hplan, ofSlot := hslot, assignment := hassignment.trans hplan, replicaSlot := hreplica.trans hslot
            time := htime, termStart := hstart, period := hperiod, anchor := hanchor, seconds := hseconds
            prior := ⟨s.attempts, rfl, hremembers⟩ }

theorem ServiceInvariant.prepare (h : ServiceInvariant plan slot s) (hidle : s.running = none)
    (hplan : r.plan = plan) (hslot : r.slot = slot) : ServiceInvariant plan slot (s.prepare r phase) := by
  unfold ServiceState.prepare
  split
  · exact h
  next intent hintent =>
  have hintended := h.intended hplan hslot hintent
  dsimp only
  split
  · exact h
  · rw [hidle]
    exact hintended.stopped
  · exact hintended

/-! ### The second batch -/

/-- The rows of a completion: a failed check rewrites the checkpoint, a success also puts its
    record and the index on top of the credit. -/
theorem completeService_commits {observation : Option StorageAssignmentObservation}
    {record : Option StoredStorageAssignmentObservation}
    (h : completeService r phase db intent observation = .commits rows record) :
    (record = none ∧ rows = db.rows.apply [.put r.checkpointKey (.value (encodeCheckpoint
        { intent.prior with lastAttempt := r.time, lastSuccess := 0, pending := false }))]) ∨
      record.isSome = true ∧ ∃ encoded verifiedBytes index rows₁,
        creditService r intent db encoded verifiedBytes = .credited rows₁ ∧
        rows = rows₁.apply [.put (observationKey r.base r.time) (.value encoded),
          .put (observationIndexKey r.base) (.value (writeIndex index)),
          .put r.checkpointKey (.value (encodeCheckpoint
            { intent.prior with
              lastAttempt := r.time, lastSuccess := r.time, successes := intent.prior.successes + 1
              pending := false }))] := by
  unfold completeService at h
  split at h
  · cases h
  dsimp only at h
  split at h
  · split at h
    · cases h
    · cases h
      exact .inl ⟨rfl, rfl⟩
  next observation =>
  generalize (if observation.kind = .fullGet then observation.retrievedBytes else r.reference) = verifiedBytes at h
  split at h
  · cases h
  split at h
  · cases h
  next index hindex =>
  split at h
  · cases h
  split at h
  · cases h
  next encoded hencoded =>
  split at h
  · cases h
  split at h
  · cases h
  · cases h
  next rows₁ hcredit =>
  split at h
  · cases h
  · cases h
    exact .inr ⟨rfl, encoded, _, _, rows₁, hcredit, rfl⟩

/-- **The credit of a success** is what the two newest attempts earn. -/
theorem Underway.credit {verifiedBytes : Bytes} (h : Underway plan slot attempts r intent)
    (hearned : Earned plan slot db.rows attempts) (hincreasing : Increasing attempts)
    (hclock : ∀ a ∈ attempts, ∀ b ∈ attempts, a.term = b.term) (htimes : ∀ a ∈ attempts, a.time ≠ 0)
    (hrun : creditService r intent db encoded verifiedBytes = .credited rows) :
    Earned plan slot rows (succeed attempts) := by
  obtain ⟨earlier, rfl, hremembers⟩ := h.prior
  obtain ⟨t, claims, hslot, hjournal, hcredited, hterm⟩ := hearned
  rw [Credited.failed_iff rfl] at hcredited
  rw [List.forall_mem_cons] at hclock
  unfold creditService at hrun
  dsimp only at hrun
  cases earlier with
  | nil =>
    rw [if_neg (fun hbad => hbad.1 hremembers.2)] at hrun
    cases hrun
    exact ⟨t, claims, hslot, hjournal, hcredited, fun hne => absurd hcredited hne⟩
  | cons b rest =>
    obtain ⟨-, -, -, hlast⟩ := hremembers
    obtain ⟨hnewest, hrest⟩ := List.pairwise_cons.mp hincreasing
    have hlt := hnewest b List.mem_cons_self
    have hterms : ∀ a ∈ succeed ({ time := r.time, term := r.scope.term, succeeded := false } :: b :: rest),
        a.term = r.scope.term :=
      List.forall_mem_cons.mpr ⟨rfl, fun a ha => hclock.2 a ha _ List.mem_cons_self⟩
    have hkept : ownedIntervals plan.commitment claims ≠ [] → t = r.scope.term :=
      fun hne => (hterm hne _ List.mem_cons_self).symm
    by_cases hbridge : Bridges b { time := r.time, term := r.scope.term, succeeded := true }
    · rw [if_pos hbridge.1] at hlast
      rw [hlast, if_pos ⟨htimes b (List.mem_cons_of_mem _ List.mem_cons_self), hbridge.2.2⟩] at hrun
      split at hrun
      · cases hrun
      split at hrun
      · cases hrun
      split at hrun
      · cases hrun
      have hbelow : ∀ i ∈ ownedIntervals r.scope.assignment.commitment claims, i.startUtc < b.time := by
        intro i hi
        rw [h.assignment] at hi
        obtain ⟨hproper, hstop⟩ := hcredited.bounds hrest i hi
        exact UInt64.lt_iff_toNat_lt.mpr (Nat.lt_of_lt_of_le hproper hstop)
      have hfunded := (term_slot h.assignment h.replicaSlot).trans hslot.symm
      obtain ⟨t', claims', cut, hjournal', hslot', howned, hcut, ht'⟩ :=
        creditSlices_spec hjournal hfunded hbelow (UInt64.le_of_lt hlt) hrun
      rw [h.assignment] at howned
      refine ⟨t', claims', hslot'.trans hslot, hjournal', ⟨_, cut, howned, hcredited, ?_⟩, ?_⟩
      · rw [if_pos hbridge]
        exact hcut
      · intro hne a ha
        rw [hterms a ha, ht']
        split
        · next hnil =>
          rw [howned, hnil, List.append_nil] at hne
          exact (hkept hne).symm
        · rfl
    · have hnot : ¬(intent.prior.lastSuccess ≠ 0 ∧
          r.time - intent.prior.lastSuccess ≤ STORAGE_ASSIGNMENT_MAX_SERVICE_GAP_SECONDS) := by
        rintro ⟨hne, hgap⟩
        by_cases hb : b.succeeded = true
        · rw [if_pos hb] at hlast
          rw [hlast] at hgap
          exact hbridge ⟨hb, rfl, hgap⟩
        · rw [if_neg hb] at hlast
          exact hne hlast
      rw [if_neg hnot] at hrun
      cases hrun
      refine ⟨t, claims, hslot, hjournal, ⟨_, [], (List.append_nil _).symm, hcredited, ?_⟩, ?_⟩
      · rw [if_neg hbridge]
      · intro hne a ha
        rw [hterms a ha, hkept hne]

theorem Earned.observed {plan : StorageAssignmentPlan} {slot : UInt8} {rows : Store Bytes ApplicationRow}
    {attempts : List ServiceAttempt} {r : ServiceRequest} {edits : List (Edit Bytes ApplicationRow)}
    (h : Earned plan slot rows attempts) (hedits : ∀ e ∈ edits, ∃ rest, e.key = r.base ++ rest) :
    Earned plan slot (rows.apply edits) attempts := by
  obtain ⟨t, claims, hslot, hjournal, hcredited⟩ := h
  exact ⟨t, claims, hslot, hjournal.observed hedits, hcredited⟩

namespace ServiceInvariant

variable {plan : StorageAssignmentPlan} {slot : UInt8} {s : ServiceState}

/-- A completion that became durable. -/
theorem completed {r : ServiceRequest} {phase : ServicePhase} {intent : ServiceIntent}
    {observation : Option StorageAssignmentObservation} {rows : Store Bytes ApplicationRow}
    {record : Option StoredStorageAssignmentObservation} (h : ServiceInvariant plan slot s)
    (hrunning : s.running = some (r, intent))
    (hcommits : completeService r phase { unlocked := phase.unlocked, rows := s.rows } intent observation =
      .commits rows record) :
    ServiceInvariant plan slot
      { rows, running := none, attempts := if record.isSome = true then succeed s.attempts else s.attempts } := by
  have hunderway := h.running r intent hrunning
  have hkey := checkpointKey_eq hunderway.ofPlan hunderway.ofSlot
  obtain ⟨earlier, hattempts, hremembers⟩ := hunderway.prior
  have hvalid : ∀ lastSuccess successes, lastSuccess ≤ r.time → ServiceCheckpoint.Valid
      { intent.prior with lastAttempt := r.time, lastSuccess, successes, pending := false } := by
    intro lastSuccess successes hle
    refine ⟨?_, ?_, hunderway.time, hle, nofun⟩
    · show intent.prior.anchor ≠ 0
      rw [hunderway.anchor]
      exact hunderway.termStart
    · show intent.prior.seconds ≠ 0
      rw [hunderway.seconds]
      exact hunderway.period
  rcases completeService_commits hcommits with
    ⟨rfl, rfl⟩ | ⟨hsome, encoded, verifiedBytes, index, rows₁, hcredit, rfl⟩
  · refine { prepared := h.prepared, earned := ?_, increasing := h.increasing, clock := h.clock, terms := h.terms
             checkpoint := .inr ⟨?_, _, ?_, hvalid 0 intent.prior.successes UInt64.zero_le, ?_⟩, running := fun _ => nofun }
    · exact h.earned.observed (List.forall_mem_singleton.mpr ⟨_, rfl⟩)
    · rw [if_neg Bool.noConfusion, hattempts]
      exact List.cons_ne_nil _ _
    · rw [← hkey]
      exact Function.update_self ..
    · rw [if_neg Bool.noConfusion, hattempts]
      exact ⟨hunderway.anchor, hunderway.seconds, rfl, rfl⟩
  · have hearned := hunderway.credit h.earned h.increasing h.clock (fun a ha => (h.terms a ha).2) hcredit
    have hincreasing := h.increasing
    have hclock := h.clock
    have hterms := h.terms
    rw [if_pos hsome]
    rw [hattempts] at hearned hincreasing hclock hterms ⊢
    rw [List.forall_mem_cons] at hclock hterms
    refine { prepared := h.prepared, earned := ?_, increasing := ?_, clock := ?_, terms := ?_
             checkpoint := .inr ⟨List.cons_ne_nil _ _, _, ?_, hvalid r.time (intent.prior.successes + 1) (UInt64.le_refl _), ?_⟩
             running := fun _ => nofun }
    · refine Earned.observed (r := r) hearned ?_
      simp only [List.forall_mem_cons, List.not_mem_nil, false_imp_iff, implies_true, and_true]
      exact ⟨⟨_, List.append_assoc _ _ _⟩, ⟨_, rfl⟩, ⟨_, rfl⟩⟩
    · exact List.pairwise_cons.mpr (List.pairwise_cons.mp hincreasing)
    · refine List.forall_mem_cons.mpr ⟨?_, fun a ha => ?_⟩
      · exact List.forall_mem_cons.mpr ⟨rfl, fun b hb => hclock.1 b (List.mem_cons_of_mem _ hb)⟩
      · have hnewest := hclock.2 a ha { time := r.time, term := r.scope.term, succeeded := false } List.mem_cons_self
        exact List.forall_mem_cons.mpr ⟨hnewest, fun b hb => hclock.2 a ha b (List.mem_cons_of_mem _ hb)⟩
    · exact List.forall_mem_cons.mpr ⟨hterms.1, hterms.2⟩
    · rw [← hkey]
      exact Function.update_self ..
    · exact ⟨hunderway.anchor, hunderway.seconds, rfl, rfl⟩

theorem complete {phase : ServicePhase} {observe : Bool → Option StorageAssignmentObservation}
    (h : ServiceInvariant plan slot s) : ServiceInvariant plan slot (s.complete phase observe) := by
  unfold ServiceState.complete
  split
  · exact h
  next r intent hrunning =>
  split
  · exact h.stopped
  · exact h.stopped
  next rows record hcommits =>
  have hcompleted := h.completed hrunning hcommits
  split
  · exact h.stopped
  · exact hcompleted
  · exact hcompleted

theorem start {rows : Store Bytes ApplicationRow} (hplan : plan.Prepared)
    (hjournals : EvidenceRun (plan.fundedSlot slot) rows) (hown : rows (evidenceKey plan.commitment slot) = none)
    (hfresh : rows (plan.checkpointKey slot) = none) :
    ServiceInvariant plan slot { rows, running := none, attempts := [] } := by
  obtain ⟨t, claims, hslot, hjournal⟩ := hjournals.journal
  have howns : t.slot.Owns plan.commitment :=
    ⟨{ assignment := plan, replicaSlot := slot, termStartUtc := 0, periodSeconds := 0 }, hslot.symm, hplan, rfl⟩
  have hrow := hjournal.mirrored plan.commitment howns
  rw [hslot] at hrow
  have hnone : ownedIntervals plan.commitment claims = [] := by
    by_contra hne
    rw [if_neg hne] at hrow
    cases hown.symm.trans hrow
  exact { prepared := hplan, earned := ⟨t, claims, hslot, hjournal, hnone, fun hne => absurd hnone hne⟩
          increasing := List.Pairwise.nil, clock := fun _ => nofun, terms := fun _ => nofun, checkpoint := .inl ⟨rfl, hfresh⟩
          running := fun _ => nofun }

theorem other {unlocked : Bool} {scope : StorageAssignmentEvidenceScope} {interval : StorageAssignmentInterval}
    {verifiedThroughUtc : UInt64} {fate : Fate} (h : ServiceInvariant plan slot s)
    (hslot : scope.fundedSlot = plan.fundedSlot slot) (hother : scope.assignment.commitment ≠ plan.commitment) :
    ServiceInvariant plan slot { s with
      rows := (appendStorageAssignmentEvidence { unlocked, rows := s.rows } scope interval verifiedThroughUtc
        fate).2 } := by
  obtain ⟨t, claims, hfunded, hjournal, hcredited, hterm⟩ := h.earned
  generalize happend : appendStorageAssignmentEvidence { unlocked, rows := s.rows } scope interval verifiedThroughUtc
    fate = outcome
  obtain ⟨result, rows⟩ := outcome
  rcases append_cases happend with ⟨-, rfl⟩ | ⟨-, happended⟩
  · exact h
  have ⟨hscope, _, intervals, claims', _, _, _, _, hrows⟩ := happended
  obtain ⟨-, hprepared, -⟩ := scopeValid_true hscope
  obtain ⟨hbounded, hsame, hbefore, -, hafter⟩ := @EvidenceTerm.Journal.appended _ t claims
    { unlocked, rows := s.rows } scope hjournal (hslot.trans hfunded.symm) _ _ happended
  have howned := ownedIntervals_insertClaim hbounded hbefore.lawful
    { assignment := scope.assignment.commitment, interval } plan.commitment
  rw [if_neg hother] at howned
  refine { h with earned := ⟨_, _, hslot, hafter, ?_, ?_⟩, checkpoint := ?_ }
  · rw [howned]
    exact hcredited
  · rw [howned]
    intro hne a ha
    have hclaims : claims ≠ [] := by
      rintro rfl
      exact hne rfl
    rw [hterm hne a ha, hsame hclaims]
  · have hnot := scope.fundedSlot.not_names_observation plan.commitment slot (ascii "/service-checkpoint")
    have hkept : rows (plan.checkpointKey slot) = s.rows (plan.checkpointKey slot) := by
      rw [hrows, addedRows]
      refine Store.apply_of_forall_ne ?_
      simp only [List.forall_mem_cons, List.not_mem_nil, false_imp_iff, implies_true, and_true]
      exact ⟨fun heq => hnot (.inr (.inr ⟨_, ⟨scope, rfl, hprepared, rfl⟩, heq.symm⟩)),
        fun heq => hnot (.inl heq.symm), fun heq => hnot (.inr (.inl heq.symm))⟩
    show Checkpointed s.attempts (rows (plan.checkpointKey slot))
    rw [hkept]
    exact h.checkpoint

end ServiceInvariant

/-- **The invariant holds in every run.** -/
theorem ServiceRun.invariant (hrun : ServiceRun plan slot s) : ServiceInvariant plan slot s := by
  induction hrun with
  | start hplan hjournals hown hfresh => exact .start hplan hjournals hown hfresh
  | elsewhere _ hjournals hcheckpoint ih => exact ih.elsewhere hjournals hcheckpoint
  | other _ hslot hother ih => exact ih.other hslot hother
  | prepare _ hidle hplan hslot ih => exact ih.prepare hidle hplan hslot
  | complete _ ih => exact ih.complete
  | crash _ ih => exact ih.stopped

/-! ### What is credited -/

/-- What holds of the attempts of a run and the rows they leave. -/
structure CreditedService (plan : StorageAssignmentPlan) (slot : UInt8) (rows : Store Bytes ApplicationRow)
    (attempts : List ServiceAttempt) : Prop where
  increasing : Increasing attempts
  /-- The attempts share the clock of one scope. -/
  clock : ∀ a ∈ attempts, ∀ b ∈ attempts, a.term = b.term
  /-- The journal of the assignment reads what the attempts have earned: the cuts of the
      bridged spans, each of them within its period. -/
  credited : ∀ (db : PrivateApplicationStore) (scope : StorageAssignmentEvidenceScope), db.rows = rows →
    db.unlocked = true → scope.assignment = plan → scope.replicaSlot = slot →
    (∀ a ∈ attempts, a.term = scope.term) →
    ∃ intervals, scope.read db = some intervals ∧ Credited attempts intervals ∧
      (∀ interval ∈ intervals, scope.term.admits interval = true) ∧
      totalSeconds intervals = spanSeconds attempts ∧
      ∀ interval ∈ intervals, ∀ a ∈ attempts,
        (a.time.toNat ≤ interval.start ∨ interval.stop ≤ a.time.toNat) ∧
        (a.succeeded = false → a.time.toNat < interval.start ∨ interval.stop < a.time.toNat)

/-- **Service is credited between two successes in a row, and nowhere else**, in every run of
    calls, whatever breaks off. -/
theorem service_credit {plan : StorageAssignmentPlan} {slot : UInt8} {s : ServiceState}
    (hrun : ServiceRun plan slot s) : CreditedService plan slot s.rows s.attempts := by
  have h := hrun.invariant
  refine { increasing := h.increasing, clock := h.clock, credited := ?_ }
  intro db scope hrows hunlocked hassignment hreplica hscope
  obtain ⟨t, claims, hslot, hjournal, hcredited, hterm⟩ := h.earned
  rw [← hrows] at hjournal
  have hclock : ownedIntervals plan.commitment claims ≠ [] → scope.term = t := by
    intro hne
    cases hattempts : s.attempts with
    | nil =>
      rw [hattempts] at hcredited
      exact absurd hcredited hne
    | cons a earlier =>
      have ha : a ∈ s.attempts := by
        rw [hattempts]
        exact List.mem_cons_self
      exact (hscope a ha).symm.trans (hterm hne a ha)
  have hread : scope.read db = some (ownedIntervals plan.commitment claims) := by
    rw [← hassignment] at hclock ⊢
    refine hjournal.read_owned hunlocked ((term_slot hassignment hreplica).trans hslot.symm) ?_ hclock
    rw [hassignment]
    exact h.prepared
  refine ⟨_, hread, hcredited, ?_, hcredited.totalSeconds, hcredited.unspanned h.increasing⟩
  intro interval hinterval
  rw [hclock (List.ne_nil_of_mem hinterval)]
  exact (hjournal.owned plan.commitment).1.admitted interval hinterval

end

section Sample

attribute [local instance] Crypto.sample

def sampleServicePlan : StorageAssignmentPlan :=
  { sampleEvidenceScope.assignment with
    context := { sampleEvidenceScope.assignment.context with chunk := computeChunkId [9] } }

def sampleServiceScope : StorageAssignmentEvidenceScope :=
  { sampleEvidenceScope with assignment := sampleServicePlan }

def sampleCall (time : UInt64) : ServiceRequest where
  plan := sampleServicePlan
  slot := 0
  provider := FixedBytes.leading 31 6
  receipt := [1]
  size := 1
  time := time
  through := time
  scope := sampleServiceScope
  receiptValid := fun _ _ => true

def samplePhase (fate : Fate) : ServicePhase where
  assignmentValid := fun _ => true
  fate := fate

def sampleAnswer (_ : Bool) : Option StorageAssignmentObservation :=
  some { kind := .fullGet, assignmentCommitment := sampleServicePlan.commitment
         storageId := FixedBytes.leading 31 6, replicaSlot := 0, receipt := [1], retrievedBytes := [9] }

/-- A store that holds the frozen assignment alone. -/
def sampleServiceStart : ServiceState where
  rows name :=
    if name = storageAssignmentKey sampleServicePlan.context then
      some (.value (encodeStorageAssignment sampleServicePlan))
    else none
  running := none
  attempts := []

def ServiceState.succeeding (s : ServiceState) (time : UInt64) : ServiceState :=
  (s.prepare (sampleCall time) (samplePhase .done)).complete (samplePhase .done) sampleAnswer

theorem sampleServiceStart_run : ServiceRun sampleServicePlan 0 sampleServiceStart := by
  have hprepared : sampleServicePlan.Prepared := ⟨sampleServicePlan.eligible, by decide +kernel⟩
  have hjournals : ∀ name, (sampleServicePlan.fundedSlot 0).Names name → sampleServiceStart.rows name = none := by
    rintro name hname
    refine if_neg ?_
    rintro rfl
    exact FundedSlot.not_names_assignment _ _ hname
  have hown := hjournals _ (.inr (.inr ⟨_, ⟨sampleServiceScope, rfl, hprepared, rfl⟩, rfl⟩))
  refine .start hprepared (.start hjournals) hown (if_neg ?_)
  rw [StorageAssignmentPlan.checkpointKey, serviceCheckpointKey, observationPrefix, storageAssignmentKey]
  simp only [List.append_assoc]
  exact prefix_ne 19 (by decide) (by decide) (by decide)

theorem ServiceRun.succeeding {s : ServiceState} (hrun : ServiceRun sampleServicePlan 0 s) (hidle : s.running = none)
    (time : UInt64) : ServiceRun sampleServicePlan 0 (s.succeeding time) :=
  .complete (.prepare hrun hidle rfl rfl)

def sampleObserved : ServiceState := sampleServiceStart.succeeding 1010

theorem sampleObserved_run : ServiceRun sampleServicePlan 0 sampleObserved :=
  sampleServiceStart_run.succeeding rfl 1010

/-- What the first batch of the next call leaves. -/
def sampleIntent : ServiceIntent where
  prior := { anchor := 1000, seconds := 100, lastAttempt := 1010, lastSuccess := 1010, successes := 1 }
  previousRecord := (sampleAnswer true).bind fun observation =>
    encodeObservation { observedAtUtc := 1010, storedSize := 1, observation }
  bytes := encodeCheckpoint { anchor := 1000, seconds := 100, lastAttempt := 1020, successes := 1, pending := true }

theorem sampleService_evaluated :
    sampleObserved.running = none ∧
    prepareService (sampleCall 1020) (samplePhase .lost) { unlocked := true, rows := sampleObserved.rows } =
      .intended sampleIntent ∧
    (sampleServiceScope.read { unlocked := true, rows := (sampleObserved.succeeding 1130).rows }).map totalSeconds =
      some 120 ∧
    (sampleServiceScope.read { unlocked := true, rows := (sampleObserved.succeeding 1130).rows }).any
      (fun intervals => intervals.any fun interval =>
        decide (interval.startUtc < 1020) && decide (1020 < interval.endUtc)) = true := by
  decide +kernel

theorem service_credit_sample :
    (sampleServiceScope.read { unlocked := true, rows := (sampleObserved.succeeding 1130).rows }).map totalSeconds =
        some 120 ∧
      CreditedService sampleServicePlan 0 (sampleObserved.succeeding 1130).rows
        (sampleObserved.succeeding 1130).attempts :=
  ⟨sampleService_evaluated.2.2.1, service_credit (sampleObserved_run.succeeding sampleService_evaluated.1 1130)⟩

def sampleUnrecorded : ServiceState := sampleObserved.prepare (sampleCall 1020) (samplePhase .lost)

/-- The call at 1020 gets as far as its commit and leaves nothing, so the time around it is
    credited. -/
theorem service_credit_unrecorded :
    (∃ intent, prepareService (sampleCall 1020) (samplePhase .lost)
        { unlocked := true, rows := sampleObserved.rows } = .intended intent) ∧
      ServiceRun sampleServicePlan 0 (sampleUnrecorded.succeeding 1130) ∧
      ∃ intervals, sampleServiceScope.read
          { unlocked := true, rows := (sampleUnrecorded.succeeding 1130).rows } = some intervals ∧
        ∃ interval ∈ intervals, interval.startUtc < 1020 ∧ 1020 < interval.endUtc := by
  have hsame : sampleUnrecorded = sampleObserved := ServiceState.prepare_lost rfl
  obtain ⟨hidle, hintended, -, hspans⟩ := sampleService_evaluated
  refine ⟨⟨sampleIntent, hintended⟩, ?_, ?_⟩
  · rw [hsame]
    exact sampleObserved_run.succeeding hidle 1130
  · rw [hsame]
    obtain ⟨intervals, hread, hany⟩ := (Option.any_eq_true _ _).mp hspans
    obtain ⟨interval, hmem, hspan⟩ := List.any_eq_true.mp hany
    simp only [Bool.and_eq_true, decide_eq_true_eq] at hspan
    exact ⟨intervals, hread, interval, hmem, hspan⟩

end Sample

end Cybou

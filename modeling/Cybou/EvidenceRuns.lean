import Cybou.StorageEvidence

/-! # No second of service is credited twice (`storage_assignment_evidence.cpp`)

`EvidenceTerm.Journal` is the invariant of the rows of one funded slot: the shared
claims are laid one after the other inside the term, and each assignment's own
journal is what it owns of them.  An append of any assignment of the slot keeps it
(`EvidenceTerm.Journal.append`), so it holds in every run (`EvidenceRun.journal`).
-/

namespace Cybou

open Library

/-! ### Intervals of a term -/

namespace StorageAssignmentInterval

def start (interval : StorageAssignmentInterval) : Nat := interval.startUtc.toNat

def stop (interval : StorageAssignmentInterval) : Nat := interval.endUtc.toNat

end StorageAssignmentInterval

namespace EvidenceTerm

def periods (t : EvidenceTerm) : Nat := t.slot.termEnd.toNat - t.slot.termStart.toNat

def duration (t : EvidenceTerm) : Nat := t.periods * t.periodSeconds.toNat

/-- The term is not empty and its last second fits into 64 bits. -/
structure Bounded (t : EvidenceTerm) : Prop where
  nonempty : t.slot.termStart.toNat < t.slot.termEnd.toNat
  fits : t.termStartUtc.toNat + t.duration < 2 ^ 64

def cell (t : EvidenceTerm) (interval : StorageAssignmentInterval) : Nat :=
  interval.period.toNat - t.slot.termStart.toNat

variable {t : EvidenceTerm}

theorem Bounded.toNat_line (h : t.Bounded) {k : UInt64} (hk : k.toNat ≤ t.periods) :
    (t.termStartUtc + k * t.periodSeconds).toNat = t.termStartUtc.toNat + k.toNat * t.periodSeconds.toNat := by
  have hfits := h.fits
  have hle : k.toNat * t.periodSeconds.toNat ≤ t.periods * t.periodSeconds.toNat := Nat.mul_le_mul_right _ hk
  rw [duration] at hfits
  have hproduct : (k * t.periodSeconds).toNat = k.toNat * t.periodSeconds.toNat := by
    rw [UInt64.toNat_mul]
    exact Nat.mod_eq_of_lt (by omega)
  rw [UInt64.toNat_add, hproduct]
  exact Nat.mod_eq_of_lt (by omega)

variable {interval : StorageAssignmentInterval}

/-- An admitted interval lies within one period of the term. -/
theorem Bounded.cell_of_admits (h : t.Bounded) (hadmits : t.admits interval = true) :
    t.cell interval < t.periods ∧ interval.start < interval.stop ∧
      t.termStartUtc.toNat + t.cell interval * t.periodSeconds.toNat ≤ interval.start ∧
      interval.stop ≤ t.termStartUtc.toNat + (t.cell interval + 1) * t.periodSeconds.toNat := by
  simp only [admits, inPeriod, Bool.and_eq_true, decide_eq_true_eq, Bool.not_eq_true'] at hadmits
  obtain ⟨⟨⟨⟨⟨hfirst, hlast⟩, hproper⟩, hlo⟩, hhi⟩, -⟩ := hadmits
  have hfits := h.fits
  rw [UInt64.le_iff_toNat_le] at hfirst hlo hhi
  rw [UInt64.lt_iff_toNat_lt] at hlast hproper
  have hcell : t.cell interval + 1 ≤ t.periods := by
    rw [cell, periods]
    omega
  have hoffset : (interval.period - t.slot.termStart).toNat = t.cell interval :=
    UInt64.toNat_sub_of_le _ _ (UInt64.le_iff_toNat_le.mpr hfirst)
  -- the period is one of the term, so neither the product nor the sums wrap
  have hstart := h.toNat_line (k := interval.period - t.slot.termStart) (by omega)
  have hle : (t.cell interval + 1) * t.periodSeconds.toNat ≤ t.periods * t.periodSeconds.toNat :=
    Nat.mul_le_mul_right _ hcell
  rw [duration] at hfits
  rw [hoffset] at hstart
  rw [Nat.add_mul, Nat.one_mul] at hle ⊢
  have hend : (t.termStartUtc + (interval.period - t.slot.termStart) * t.periodSeconds + t.periodSeconds).toNat =
      t.termStartUtc.toNat + t.cell interval * t.periodSeconds.toNat + t.periodSeconds.toNat := by
    rw [UInt64.toNat_add, hstart]
    exact Nat.mod_eq_of_lt (by omega)
  rw [hstart] at hlo
  rw [hend] at hhi
  rw [StorageAssignmentInterval.start, StorageAssignmentInterval.stop]
  omega

theorem Bounded.of_admits (h : t.Bounded) (hadmits : t.admits interval = true) :
    interval.start < interval.stop ∧ t.termStartUtc.toNat ≤ interval.start ∧
      interval.stop ≤ t.termStartUtc.toNat + t.duration := by
  obtain ⟨hcell, hproper, hlo, hhi⟩ := h.cell_of_admits hadmits
  have hle : (t.cell interval + 1) * t.periodSeconds.toNat ≤ t.duration := Nat.mul_le_mul_right _ hcell
  omega

/-- Intervals as the readers take them: of the term, one after the other, and no
    proof twice. -/
structure Lawful (t : EvidenceTerm) (intervals : List StorageAssignmentInterval) : Prop where
  admitted : ∀ interval ∈ intervals, t.admits interval = true
  laid : Laid StorageAssignmentInterval.start StorageAssignmentInterval.stop intervals
  distinct : (intervals.map (·.proofCommitment)).Nodup

namespace Lawful

variable {t : EvidenceTerm} {intervals : List StorageAssignmentInterval}

theorem proper (h : t.Lawful intervals) (hbounded : t.Bounded) :
    ∀ interval ∈ intervals, interval.start < interval.stop :=
  fun interval hmem => (hbounded.of_admits (h.admitted interval hmem)).1

theorem sublist {part : List StorageAssignmentInterval} (h : t.Lawful intervals)
    (hpart : part.Sublist intervals) : t.Lawful part where
  admitted := fun interval hmem => h.admitted interval (hpart.subset hmem)
  laid := h.laid.sublist hpart
  distinct := h.distinct.sublist (hpart.map _)

variable {interval : StorageAssignmentInterval}

theorem follows (h : t.Lawful intervals) {before after : List StorageAssignmentInterval}
    (heq : intervals = before ++ interval :: after) :
    Cybou.follows t before interval := by
  rw [heq] at h
  refine ⟨h.admitted interval (by simp), ?_, ?_⟩
  · have hnodup := h.distinct
    rw [List.map_append, List.map_cons] at hnodup
    exact fun hmem => (List.nodup_append.mp hnodup).2.2 _ hmem _ List.mem_cons_self rfl
  · intro last hlast
    have hmem : last ∈ before := List.mem_of_getLast? hlast
    have hle := (List.pairwise_append.mp h.laid).2.2 last hmem interval List.mem_cons_self
    rw [UInt64.le_iff_toNat_le]
    exact hle

theorem insertInterval_eq (interval : StorageAssignmentInterval) (intervals : List StorageAssignmentInterval) :
    insertInterval interval intervals =
      insertBefore (fun prior => decide (prior.start < interval.start)) interval intervals := by
  have hbelow : (fun prior : StorageAssignmentInterval => decide (prior.startUtc < interval.startUtc)) =
      fun prior => decide (prior.start < interval.start) := by
    funext prior
    exact decide_eq_decide.mpr UInt64.lt_iff_toNat_lt
  rw [insertInterval, hbelow]

theorem insert (h : t.Lawful intervals) (hbounded : t.Bounded) (hadmits : t.admits interval = true)
    (hfree : ∀ prior ∈ intervals, conflicts prior interval = false) :
    t.Lawful (insertInterval interval intervals) := by
  have hfacts : ∀ prior ∈ intervals, prior.proofCommitment ≠ interval.proofCommitment ∧
      (prior.stop ≤ interval.start ∨ interval.stop ≤ prior.start) := by
    intro prior hmem
    have hno := hfree prior hmem
    simp only [conflicts, Bool.or_eq_false_iff, decide_eq_false_iff_not, Bool.and_eq_false_iff,
      UInt64.not_lt, UInt64.le_iff_toNat_le] at hno
    exact ⟨hno.1, hno.2.symm⟩
  have hperm := insertBefore_perm (fun prior : StorageAssignmentInterval =>
    decide (prior.start < interval.start)) interval intervals
  rw [insertInterval_eq]
  refine ⟨fun i hmem => ?_, ?_, ?_⟩
  · rcases mem_insertBefore.mp hmem with hi | hi
    · rw [hi]
      exact hadmits
    · exact h.admitted i hi
  · exact h.laid.insertBefore (h.proper hbounded) (hbounded.of_admits hadmits).1
      fun prior hmem => (hfacts prior hmem).2
  · refine (hperm.map _).nodup_iff.mpr (List.nodup_cons.mpr ⟨fun hmem => ?_, h.distinct⟩)
    obtain ⟨prior, hprior, heq⟩ := List.mem_map.mp hmem
    exact (hfacts prior hprior).1 heq

end Lawful

end EvidenceTerm

/-! ### Records and their readers -/

theorem readInterval_exact : Reader.Exact readInterval writeInterval fun _ => True := by
  intro b interval r
  simp only [readInterval, Reader.u64_exact.bind, (Reader.fixed_exact 32).bind, Reader.pure_eq_some, true_and]
  constructor
  · rintro ⟨period, _, rfl, startUtc, _, rfl, endUtc, _, rfl, proof, _, rfl, rfl, rfl⟩
    simp [writeInterval]
  · rintro rfl
    exact ⟨_, _, by simp [writeInterval], _, _, rfl, _, _, rfl, _, _, rfl, rfl, rfl⟩

theorem readFundedClaim_exact : Reader.Exact readFundedClaim writeFundedClaim fun _ => True := by
  intro b claim r
  simp only [readFundedClaim, (Reader.fixed_exact 32).bind, readInterval_exact.bind, Reader.pure_eq_some,
    true_and]
  constructor
  · rintro ⟨assignment, _, rfl, interval, _, rfl, rfl, rfl⟩
    simp [writeFundedClaim]
  · rintro rfl
    exact ⟨_, _, by simp [writeFundedClaim], _, _, rfl, rfl, rfl⟩

theorem length_writeInterval (interval : StorageAssignmentInterval) : (writeInterval interval).length = 56 := by
  simp [writeInterval, interval.proofCommitment.2]

theorem length_writeFundedClaim (claim : StorageFundedSlotClaim) : (writeFundedClaim claim).length = 88 := by
  simp [writeFundedClaim, claim.assignment.2, length_writeInterval]

namespace EvidenceTerm

variable {t : EvidenceTerm}

/-- **The journal of an assignment is accepted by its own reader.** -/
theorem Lawful.readJournal {intervals : List StorageAssignmentInterval} (h : t.Lawful intervals)
    (hsize : intervals.length ≤ MAX_STORAGE_ASSIGNMENT_INTERVALS) (commitment : FixedBytes 32) :
    readBinary BINARY_LIMIT (readJournal t commitment) (writeJournal t commitment intervals) =
      some intervals := by
  have hmax : MAX_STORAGE_ASSIGNMENT_INTERVALS = 4096 := rfl
  have hlength : (writeJournal t commitment intervals).length = 53 + intervals.length * 56 := by
    rw [writeJournal, List.length_append, Reader.length_concat length_writeInterval]
    simp [commitment.2]
  have hfits : ¬(writeJournal t commitment intervals).length > BINARY_LIMIT := by
    rw [hlength, BINARY_LIMIT]
    omega
  have hloop : Reader.growN readInterval (Cybou.follows t) intervals.length []
      (Reader.concat writeInterval intervals) = some (intervals, []) := by
    refine (Reader.growN_eq_some readInterval_exact).mpr
      ⟨intervals, rfl, fun _ _ => trivial, fun before interval after heq => ?_, rfl, by simp⟩
    rw [List.nil_append]
    exact h.follows heq
  have hslot : ([t.slot.replicaSlot] : Bytes) = (fun x : UInt8 => [x]) t.slot.replicaSlot := rfl
  rw [readBinary, if_neg hfits, Reader.whole_eq_some, Cybou.readJournal, writeJournal, List.append_assoc,
    List.append_assoc, List.append_assoc, List.append_assoc,
    (Reader.fixed_exact 32).bind_append trivial, Reader.require_bind_apply, if_pos rfl, hslot,
    Reader.u8_exact.bind_append trivial, Reader.require_bind_apply, if_pos rfl,
    Reader.u64_exact.bind_append trivial, Reader.require_bind_apply, if_pos rfl,
    Reader.u64_exact.bind_append trivial, Reader.require_bind_apply, if_pos rfl,
    Reader.count_exact.bind_append (by omega), Reader.require_bind_apply, if_pos hsize, hloop]

variable {claims : List StorageFundedSlotClaim}

theorem readClaims_header {t' : EvidenceTerm} {claims' : List StorageFundedSlotClaim}
    (h : readBinary CLAIM_RECORD_LIMIT (readClaims t') (writeClaims t claims) = some claims') :
    t'.termStartUtc = t.termStartUtc ∧ t'.periodSeconds = t.periodSeconds := by
  rw [readBinary, Option.ite_none_left_eq_some, Reader.whole_eq_some, readClaims, writeClaims,
    List.append_assoc, List.append_assoc, Reader.u64_exact.bind_append trivial, Reader.require_bind_apply,
    Option.ite_none_right_eq_some, Reader.u64_exact.bind_append trivial, Reader.require_bind_apply,
    Option.ite_none_right_eq_some] at h
  exact ⟨h.2.1.symm, h.2.2.1.symm⟩

/-- **The shared journal is accepted by its own reader.** -/
theorem Lawful.readClaims (h : t.Lawful (claims.map (·.interval)))
    (hsize : claims.length ≤ MAX_STORAGE_ASSIGNMENT_INTERVALS)
    (howners : ∀ claim ∈ claims, isZero claim.assignment.1 = false) :
    readBinary CLAIM_RECORD_LIMIT (readClaims t) (writeClaims t claims) = some claims := by
  have hmax : MAX_STORAGE_ASSIGNMENT_INTERVALS = 4096 := rfl
  have hlength : (writeClaims t claims).length = 20 + claims.length * 88 := by
    rw [writeClaims, List.length_append, Reader.length_concat length_writeFundedClaim]
    simp
  have hfits : ¬(writeClaims t claims).length > CLAIM_RECORD_LIMIT := by
    rw [hlength, CLAIM_RECORD_LIMIT]
    omega
  have hloop : Reader.growN readFundedClaim (claimFollows t) claims.length []
      (Reader.concat writeFundedClaim claims) = some (claims, []) := by
    refine (Reader.growN_eq_some readFundedClaim_exact).mpr
      ⟨claims, rfl, fun _ _ => trivial, fun before claim after heq => ⟨?_, ?_⟩, rfl, by simp⟩
    · exact howners claim (by simp [heq])
    · have hmap : claims.map (·.interval) =
          before.map (·.interval) ++ claim.interval :: after.map (·.interval) := by
        rw [heq, List.map_append, List.map_cons]
      rw [List.nil_append]
      exact h.follows hmap
  rw [readBinary, if_neg hfits, Reader.whole_eq_some, Cybou.readClaims, writeClaims, List.append_assoc,
    List.append_assoc, Reader.u64_exact.bind_append trivial, Reader.require_bind_apply, if_pos rfl,
    Reader.u64_exact.bind_append trivial, Reader.require_bind_apply, if_pos rfl,
    Reader.count_exact.bind_append (by omega), Reader.require_bind_apply, if_pos hsize, hloop]

end EvidenceTerm

/-! ### What an assignment owns -/

theorem insertClaim_intervals (claim : StorageFundedSlotClaim) (claims : List StorageFundedSlotClaim) :
    (insertClaim claim claims).map (·.interval) =
      insertInterval claim.interval (claims.map (·.interval)) :=
  map_insertBefore (·.interval) (fun prior => decide (prior.startUtc < claim.interval.startUtc)) claim claims

theorem ownedIntervals_sublist (commitment : FixedBytes 32) (claims : List StorageFundedSlotClaim) :
    (ownedIntervals commitment claims).Sublist (claims.map (·.interval)) :=
  List.filter_sublist.map _

theorem length_ownedIntervals_le (commitment : FixedBytes 32) (claims : List StorageFundedSlotClaim) :
    (ownedIntervals commitment claims).length ≤ claims.length := by
  have hle := (ownedIntervals_sublist commitment claims).length_le
  rwa [List.length_map] at hle

variable {t : EvidenceTerm} {claims : List StorageFundedSlotClaim}

theorem ownedIntervals_insertClaim (hbounded : t.Bounded) (h : t.Lawful (claims.map (·.interval)))
    (claim : StorageFundedSlotClaim) (commitment : FixedBytes 32) :
    ownedIntervals commitment (insertClaim claim claims) =
      if claim.assignment = commitment then insertInterval claim.interval (ownedIntervals commitment claims)
      else ownedIntervals commitment claims := by
  have hsplit : Split (fun prior : StorageFundedSlotClaim =>
      decide (prior.interval.startUtc < claim.interval.startUtc)) claims := by
    have hmap := h.laid.split (h.proper hbounded) claim.interval.start
    rw [Split, List.pairwise_map] at hmap
    refine hmap.imp fun {a b} himp => ?_
    rw [decide_eq_true_eq, decide_eq_true_eq] at himp ⊢
    rw [UInt64.lt_iff_toNat_lt, UInt64.lt_iff_toNat_lt]
    exact himp
  rw [ownedIntervals, insertClaim, hsplit.filter_insertBefore]
  by_cases howner : claim.assignment = commitment
  · rw [if_pos (by simpa using howner), if_pos howner]
    exact map_insertBefore (·.interval) (fun prior => decide (prior.startUtc < claim.interval.startUtc))
      claim _
  · rw [if_neg (by simpa using howner), if_neg howner]
    rfl

/-! ### Seconds -/

def totalSeconds (intervals : List StorageAssignmentInterval) : Nat :=
  covered StorageAssignmentInterval.start StorageAssignmentInterval.stop intervals

theorem length_decimal_uint64 (v : UInt64) : (decimal v.toNat).length ≤ 20 := by
  have hlt : v.toNat < 2 ^ 64 := v.toNat_lt
  exact length_decimal_le (by omega) (by omega)

theorem length_decimal_uint8 (v : UInt8) : (decimal v.toNat).length ≤ 3 := by
  have hlt : v.toNat < 2 ^ 8 := v.toNat_lt
  exact length_decimal_le (by omega) (by omega)

theorem evidenceKey_inj {replicaSlot : UInt8} {c c' : FixedBytes 32}
    (h : evidenceKey c replicaSlot = evidenceKey c' replicaSlot) : c = c' := by
  rw [evidenceKey, evidenceKey] at h
  have hhex := List.append_cancel_left (List.append_cancel_right h)
  exact Subtype.ext (hex_injective hhex)

namespace FundedSlot

variable (slot : FundedSlot)

theorem key_eq : slot.key =
    ascii "storage/funded-slot-evidence/" ++ (hex slot.networkBinding.1 ++ (ascii "/" ++
      (hex slot.publication.1 ++ (ascii "/" ++ (hex slot.chunk.1 ++ (ascii "/" ++ (hex slot.payer.1 ++
        (ascii "/" ++ (decimal slot.termStart.toNat ++ (ascii "/" ++ (decimal slot.termEnd.toNat ++
          (ascii "/" ++ decimal slot.replicaSlot.toNat)))))))))))) := by
  simp only [key, List.append_assoc]

theorem key_ne_initializedKey : slot.key ≠ slot.initializedKey := by
  intro h
  have hlen := congrArg List.length h
  rw [initializedKey, List.length_append] at hlen
  have hsuffix : (ascii "/initialized").length = 12 := by decide
  omega

theorem evidenceKey_ne_key (c : FixedBytes 32) (replicaSlot : UInt8) : evidenceKey c replicaSlot ≠ slot.key := by
  simp only [evidenceKey, slot.key_eq, List.append_assoc]
  exact prefix_ne 9 (by decide) (by decide) (by decide)

theorem evidenceKey_ne_initializedKey (c : FixedBytes 32) (replicaSlot : UInt8) :
    evidenceKey c replicaSlot ≠ slot.initializedKey := by
  simp only [evidenceKey, initializedKey, slot.key_eq, List.append_assoc]
  exact prefix_ne 9 (by decide) (by decide) (by decide)

end FundedSlot

theorem usable_evidenceKey (c : FixedBytes 32) (replicaSlot : UInt8) :
    PrivateApplicationStore.usable (evidenceKey c replicaSlot) = true := by
  have hprefix : (ascii "storage/assignment-evidence/").length = 28 := by decide
  have hslash : (ascii "/").length = 1 := by decide
  have hdecimal := length_decimal_uint8 replicaSlot
  rw [evidenceKey, List.append_assoc]
  refine usable_of_length (by decide) (by decide) ?_
  simp only [List.length_append, length_hex, c.2, hprefix, hslash, MAX_NAME_BYTES]
  omega

theorem FundedSlot.length_key_le (slot : FundedSlot) : slot.key.length ≤ 334 := by
  have hprefix : (ascii "storage/funded-slot-evidence/").length = 29 := by decide
  have hslash : (ascii "/").length = 1 := by decide
  have hstart := length_decimal_uint64 slot.termStart
  have hend := length_decimal_uint64 slot.termEnd
  have hslot := length_decimal_uint8 slot.replicaSlot
  simp only [slot.key_eq, List.length_append, length_hex, slot.networkBinding.2, slot.publication.2,
    slot.chunk.2, slot.payer.2, hprefix, hslash]
  omega

theorem FundedSlot.usable_key (slot : FundedSlot) : PrivateApplicationStore.usable slot.key = true := by
  have hle := slot.length_key_le
  rw [slot.key_eq] at hle ⊢
  refine usable_of_length (by decide) (by decide) ?_
  rw [MAX_NAME_BYTES]
  omega

theorem FundedSlot.usable_initializedKey (slot : FundedSlot) :
    PrivateApplicationStore.usable slot.initializedKey = true := by
  have hle := slot.length_key_le
  have hsuffix : (ascii "/initialized").length = 12 := by decide
  have hlength : slot.initializedKey.length = slot.key.length + 12 := by
    rw [FundedSlot.initializedKey, List.length_append, hsuffix]
  simp only [FundedSlot.initializedKey, slot.key_eq, List.append_assoc] at hle hlength ⊢
  refine usable_of_length (by decide) (by decide) ?_
  rw [MAX_NAME_BYTES]
  omega

namespace PrivateApplicationStore

variable {db : PrivateApplicationStore} {name : Bytes}

variable {bytes : Bytes}

theorem get_of_usable (hunlocked : db.unlocked = true) (husable : usable name = true)
    (hrow : db.rows name = some (.value bytes)) : db.get name = some bytes := by
  simp [get, hunlocked, husable, hrow]

theorem row_of_get (h : db.get name = some bytes) : db.rows name = some (.value bytes) := by
  rw [get] at h
  split at h
  · split at h
    next value hrow =>
      cases h
      exact hrow
    · cases h
  · cases h

theorem get_of_absent (hrow : db.rows name = none) : db.get name = none := by
  simp [get, hrow]

theorem has_of_absent (hrow : db.rows name = none) : db.has name = false := by
  simp [has, hrow]

end PrivateApplicationStore

/-! ### Valid scopes -/

section

variable [Crypto]

def StorageAssignmentPlan.Prepared (plan : StorageAssignmentPlan) : Prop :=
  ∃ eligible, prepareStorageAssignment plan.context eligible = .plan plan

variable {plan : StorageAssignmentPlan}

theorem StorageAssignmentPlan.Prepared.commitment_ne_null (h : plan.Prepared) :
    isZero plan.commitment.1 = false := by
  obtain ⟨eligible, hprepare⟩ := h
  unfold prepareStorageAssignment at hprepare
  dsimp only at hprepare
  split at hprepare
  · cases hprepare
  split at hprepare
  · cases hprepare
  split at hprepare
  · cases hprepare
  split at hprepare
  · cases hprepare
  split at hprepare
  · cases hprepare
  have hplan := AssignmentOutcome.plan.inj hprepare
  rw [← hplan]
  exact Crypto.sha256_ne_null _

variable {db : PrivateApplicationStore}

theorem loadStorageAssignment_prepared {context : StorageAssignmentContext}
    (h : loadStorageAssignment db context = some (some plan)) :
    ∃ eligible, prepareStorageAssignment context eligible = .plan plan := by
  unfold loadStorageAssignment at h
  dsimp only at h
  split at h
  · cases h
  split at h
  · cases h
  next eligible selected _ =>
    split at h
    · cases h
    · cases h
    next plan' hprepare =>
      split at h
      · cases h
      · obtain rfl := Option.some.inj (Option.some.inj h)
        exact ⟨eligible, hprepare⟩

variable {scope : StorageAssignmentEvidenceScope}

theorem scopeValid_true (h : scopeValid db scope = some true) :
    scope.term.Bounded ∧ scope.assignment.Prepared ∧ db.unlocked = true := by
  unfold scopeValid at h
  dsimp only at h
  split at h
  · cases h
  next hchecks =>
    split at h
    · cases h
    next hlocked =>
      obtain ⟨plan, hload, hplan⟩ := Option.map_eq_some_iff.mp h
      rw [decide_eq_true_eq] at hplan
      rw [hplan] at hload
      refine ⟨?_, loadStorageAssignment_prepared hload, by simpa using hlocked⟩
      simp only [not_or, UInt64.not_le, gt_iff_lt, UInt64.not_lt] at hchecks
      obtain ⟨hterm, -, hperiod, -, hperiods⟩ := hchecks
      have hlt : scope.assignment.context.termStart.toNat < scope.assignment.context.termEnd.toNat :=
        UInt64.lt_iff_toNat_lt.mp hterm
      have hne : 0 < scope.periodSeconds.toNat := by
        rw [Nat.pos_iff_ne_zero]
        exact fun h₀ => hperiod (UInt64.toNat_inj.mp h₀)
      have hmax : UINT64_MAX.toNat = 2 ^ 64 - 1 := rfl
      have hutc : scope.termStartUtc.toNat < 2 ^ 64 := scope.termStartUtc.toNat_lt
      rw [UInt64.le_iff_toNat_le, UInt64.toNat_div, Nat.le_div_iff_mul_le hne,
        UInt64.toNat_sub_of_le _ _ (UInt64.le_iff_toNat_le.mpr hlt.le),
        UInt64.toNat_sub_of_le _ _ (UInt64.le_iff_toNat_le.mpr (by omega))] at hperiods
      refine ⟨hlt, ?_⟩
      rw [EvidenceTerm.duration, EvidenceTerm.periods]
      change scope.termStartUtc.toNat + (scope.assignment.context.termEnd.toNat -
        scope.assignment.context.termStart.toNat) * scope.periodSeconds.toNat < 2 ^ 64
      omega

def FundedSlot.Owns (slot : FundedSlot) (commitment : FixedBytes 32) : Prop :=
  ∃ scope : StorageAssignmentEvidenceScope, scope.fundedSlot = slot ∧ scope.assignment.Prepared ∧
    scope.assignment.commitment = commitment

/-! ### The invariant -/

structure EvidenceTerm.Journal (t : EvidenceTerm) (rows : Store Bytes ApplicationRow)
    (claims : List StorageFundedSlotClaim) : Prop where
  bounded : claims ≠ [] → t.Bounded
  lawful : t.Lawful (claims.map (·.interval))
  owners : ∀ claim ∈ claims, isZero claim.assignment.1 = false
  small : claims.length ≤ MAX_STORAGE_ASSIGNMENT_INTERVALS
  shared : rows t.slot.key = if claims = [] then none else some (.value (writeClaims t claims))
  initialized : rows t.slot.initializedKey = if claims = [] then none else some (.value [1])
  mirrored : ∀ commitment, t.slot.Owns commitment →
    rows (evidenceKey commitment t.slot.replicaSlot) =
      if ownedIntervals commitment claims = [] then none
      else some (.value (writeJournal t commitment (ownedIntervals commitment claims)))

namespace EvidenceTerm.Journal

variable {t : EvidenceTerm} {rows : Store Bytes ApplicationRow} {claims : List StorageFundedSlotClaim}
  {db : PrivateApplicationStore} {scope : StorageAssignmentEvidenceScope}

theorem owned (h : t.Journal rows claims) (commitment : FixedBytes 32) :
    t.Lawful (ownedIntervals commitment claims) ∧
      (ownedIntervals commitment claims).length ≤ MAX_STORAGE_ASSIGNMENT_INTERVALS :=
  ⟨h.lawful.sublist (ownedIntervals_sublist commitment claims),
    (length_ownedIntervals_le commitment claims).trans h.small⟩

theorem empty (h : t.Journal rows []) {t' : EvidenceTerm} (hslot : t'.slot = t.slot) : t'.Journal rows [] where
  bounded hne := absurd rfl hne
  lawful := ⟨by simp, List.Pairwise.nil, by simp⟩
  owners := by simp
  small := Nat.zero_le _
  shared := by rw [hslot, h.shared, if_pos rfl, if_pos rfl]
  initialized := by rw [hslot, h.initialized, if_pos rfl]
  mirrored commitment howns := by
    rw [hslot] at howns ⊢
    rw [h.mirrored commitment howns]
    rfl

theorem claims_eq (h : t.Journal db.rows claims) (hunlocked : db.unlocked = true) (hterm : scope.term = t) :
    scope.claims db = some claims := by
  have hkey : scope.fundedKey = t.slot.key := by
    rw [← hterm]
    rfl
  have hmarker : scope.fundedKey ++ ascii "/initialized" = t.slot.initializedKey := by
    rw [hkey]
    rfl
  rw [StorageAssignmentEvidenceScope.claims, hmarker, hkey, hterm]
  by_cases hempty : claims = []
  · have hshared := h.shared
    have hinitialized := h.initialized
    rw [if_pos hempty] at hshared hinitialized
    rw [PrivateApplicationStore.get_of_absent hshared, PrivateApplicationStore.has_of_absent hshared,
      PrivateApplicationStore.has_of_absent hinitialized, hunlocked, hempty]
    rfl
  · have hshared := h.shared
    have hinitialized := h.initialized
    rw [if_neg hempty] at hshared hinitialized
    rw [PrivateApplicationStore.get_of_usable hunlocked t.slot.usable_key hshared,
      PrivateApplicationStore.get_of_usable hunlocked t.slot.usable_initializedKey hinitialized]
    simpa using h.lawful.readClaims h.small h.owners

theorem read_owned (h : t.Journal db.rows claims) (hunlocked : db.unlocked = true)
    (hslot : scope.fundedSlot = t.slot) (hprepared : scope.assignment.Prepared)
    (hterm : ownedIntervals scope.assignment.commitment claims ≠ [] → scope.term = t) :
    scope.read db = some (ownedIntervals scope.assignment.commitment claims) := by
  have hkey : scope.key = evidenceKey scope.assignment.commitment t.slot.replicaSlot := by
    rw [← hslot]
    rfl
  have hrow := h.mirrored scope.assignment.commitment ⟨scope, hslot, hprepared, rfl⟩
  rw [StorageAssignmentEvidenceScope.read, hkey]
  by_cases hempty : ownedIntervals scope.assignment.commitment claims = []
  · rw [if_pos hempty] at hrow
    rw [PrivateApplicationStore.get_of_absent hrow, PrivateApplicationStore.has_of_absent hrow, hunlocked,
      hempty]
    rfl
  · rw [if_neg hempty] at hrow
    have howned := h.owned scope.assignment.commitment
    rw [hterm hempty, PrivateApplicationStore.get_of_usable hunlocked (usable_evidenceKey _ _) hrow]
    exact howned.1.readJournal howned.2 _

theorem read_eq (h : t.Journal db.rows claims) (hunlocked : db.unlocked = true) (hterm : scope.term = t)
    (hprepared : scope.assignment.Prepared) :
    scope.read db = some (ownedIntervals scope.assignment.commitment claims) :=
  h.read_owned hunlocked (congrArg EvidenceTerm.slot hterm) hprepared fun _ => hterm

theorem term_eq (h : t.Journal db.rows claims) (hne : claims ≠ []) (hunlocked : db.unlocked = true)
    (hslot : scope.fundedSlot = t.slot) {claims' : List StorageFundedSlotClaim}
    (hread : scope.claims db = some claims') : scope.term = t := by
  have hkey : scope.fundedKey = t.slot.key := by
    rw [← hslot]
    rfl
  have hmarker : scope.fundedKey ++ ascii "/initialized" = t.slot.initializedKey := by
    rw [hkey]
    rfl
  have hshared := h.shared
  have hinitialized := h.initialized
  rw [if_neg hne] at hshared hinitialized
  rw [StorageAssignmentEvidenceScope.claims, hmarker, hkey,
    PrivateApplicationStore.get_of_usable hunlocked t.slot.usable_key hshared,
    PrivateApplicationStore.get_of_usable hunlocked t.slot.usable_initializedKey hinitialized] at hread
  obtain ⟨hstart, hperiod⟩ := readClaims_header (by simpa using hread)
  cases t with
  | mk slot termStartUtc periodSeconds =>
    subst hslot hstart hperiod
    rfl

end EvidenceTerm.Journal

/-! ### One append -/

omit [Crypto] in
theorem checkPrior_ne_added (interval : StorageAssignmentInterval) (intervals : List StorageAssignmentInterval) :
    checkPrior interval intervals ≠ some .added := by
  induction intervals with
  | nil => simp [checkPrior]
  | cons prior rest ih =>
    rw [checkPrior]
    by_cases hsame : prior = interval
    · simp [hsame]
    · by_cases hconflict : conflicts prior interval = true
      · simp [hsame, hconflict]
      · simpa [hsame, hconflict] using ih

def addedRows (rows : Store Bytes ApplicationRow) (scope : StorageAssignmentEvidenceScope)
    (intervals : List StorageAssignmentInterval) (claims : List StorageFundedSlotClaim) :
    Store Bytes ApplicationRow :=
  rows.apply [.put scope.key (.value (writeJournal scope.term scope.assignment.commitment intervals)),
    .put scope.fundedSlot.key (.value (writeClaims scope.term claims)),
    .put scope.fundedSlot.initializedKey (.value [1])]

variable {claims : List StorageFundedSlotClaim} {rows : Store Bytes ApplicationRow}

variable {fate : Fate} {result : Option StorageEvidenceAppendResult}

omit [Crypto] in
/-- What a commit of evidence leaves, for each fate of its batch. -/
theorem storeEvidence_cases {intervals : List StorageAssignmentInterval}
    (h : storeEvidence db scope intervals claims fate = (result, rows)) :
    (result ≠ some .added ∧ rows = db.rows) ∨
      ((result = some .added ∨ fate = .stored) ∧ rows = addedRows db.rows scope intervals claims) := by
  unfold storeEvidence at h
  split at h
  · obtain ⟨rfl, rfl⟩ := Prod.mk.inj h
    exact .inl ⟨by simp, rfl⟩
  next journal hjournal =>
    split at h
    · obtain ⟨rfl, rfl⟩ := Prod.mk.inj h
      exact .inl ⟨by simp, rfl⟩
    split at h
    · obtain ⟨rfl, rfl⟩ := Prod.mk.inj h
      exact .inl ⟨by simp, rfl⟩
    next shared hshared =>
      split at h
      · obtain ⟨rfl, rfl⟩ := Prod.mk.inj h
        exact .inl ⟨by simp, rfl⟩
      · obtain ⟨rfl, rfl⟩ := Prod.mk.inj h
        rw [StorageAssignmentEvidenceScope.encode, binaryObject, Option.ite_none_right_eq_some] at hjournal
        rw [StorageAssignmentEvidenceScope.encodeClaims, binaryObject, Option.ite_none_right_eq_some] at hshared
        obtain rfl := Option.some.inj hjournal.2
        obtain rfl := Option.some.inj hshared.2
        cases fate with
        | done => exact .inr ⟨.inl rfl, rfl⟩
        | lost => exact .inl ⟨by simp, rfl⟩
        | stored => exact .inr ⟨.inr rfl, rfl⟩

def EvidenceAppended (db : PrivateApplicationStore) (scope : StorageAssignmentEvidenceScope)
    (interval : StorageAssignmentInterval) (rows : Store Bytes ApplicationRow) : Prop :=
  scopeValid db scope = some true ∧ intervalValid scope interval = true ∧
    ∃ intervals claims, scope.read db = some intervals ∧ scope.claims db = some claims ∧
      claims.length < MAX_STORAGE_ASSIGNMENT_INTERVALS ∧
      (∀ claim ∈ claims, conflicts claim.interval interval = false) ∧
      rows = addedRows db.rows scope (insertInterval interval intervals)
        (insertClaim { assignment := scope.assignment.commitment, interval } claims)

/-- **An append changes nothing, or it adds one interval to both journals.** -/
theorem append_cases {interval : StorageAssignmentInterval} {verifiedThroughUtc : UInt64}
    (h : appendStorageAssignmentEvidence db scope interval verifiedThroughUtc fate = (result, rows)) :
    (result ≠ some .added ∧ rows = db.rows) ∨
      ((result = some .added ∨ fate = .stored) ∧ EvidenceAppended db scope interval rows) := by
  unfold appendStorageAssignmentEvidence at h
  split at h
  · obtain ⟨rfl, rfl⟩ := Prod.mk.inj h
    exact .inl ⟨by simp, rfl⟩
  · obtain ⟨rfl, rfl⟩ := Prod.mk.inj h
    exact .inl ⟨by simp, rfl⟩
  next hscope =>
    by_cases hinterval : intervalValid scope interval = false ∨ interval.endUtc > verifiedThroughUtc
    · rw [if_pos hinterval] at h
      obtain ⟨rfl, rfl⟩ := Prod.mk.inj h
      exact .inl ⟨by simp, rfl⟩
    rw [if_neg hinterval] at h
    have hvalid : intervalValid scope interval = true := by
      rw [← Bool.not_eq_false]
      exact fun hfalse => hinterval (.inl hfalse)
    split at h
    next intervals claims hread hclaims =>
      by_cases hconsistent : consistent scope intervals claims = false
      · rw [if_pos hconsistent] at h
        obtain ⟨rfl, rfl⟩ := Prod.mk.inj h
        exact .inl ⟨by simp, rfl⟩
      rw [if_neg hconsistent] at h
      split at h
      next result' hprior =>
        obtain ⟨rfl, rfl⟩ := Prod.mk.inj h
        refine .inl ⟨fun hadded => checkPrior_ne_added interval intervals ?_, rfl⟩
        rw [hprior, hadded]
      next =>
        by_cases hrefused : intervals.length ≥ MAX_STORAGE_ASSIGNMENT_INTERVALS ∨
            claims.length ≥ MAX_STORAGE_ASSIGNMENT_INTERVALS ∨
            claims.any (fun claim => conflicts claim.interval interval) = true
        · rw [if_pos hrefused] at h
          obtain ⟨rfl, rfl⟩ := Prod.mk.inj h
          exact .inl ⟨by simp, rfl⟩
        rw [if_neg hrefused] at h
        simp only [not_or, Bool.not_eq_true, List.any_eq_false, ge_iff_le, not_le] at hrefused
        obtain ⟨-, hroom, hfree⟩ := hrefused
        rcases storeEvidence_cases h with hkept | ⟨hwritten, hrows⟩
        · exact .inl hkept
        · exact .inr ⟨hwritten, hscope, hvalid, intervals, claims, hread, hclaims, hroom,
            fun claim hmem => by simpa using hfree claim hmem, hrows⟩
    next =>
      obtain ⟨rfl, rfl⟩ := Prod.mk.inj h
      exact .inl ⟨by simp, rfl⟩

theorem append_added {interval : StorageAssignmentInterval} {verifiedThroughUtc : UInt64}
    (h : appendStorageAssignmentEvidence db scope interval verifiedThroughUtc fate = (some .added, rows)) :
    EvidenceAppended db scope interval rows := by
  rcases append_cases h with ⟨hnot, -⟩ | ⟨-, happended⟩
  · exact absurd rfl hnot
  · exact happended

namespace EvidenceTerm.Journal

variable {t : EvidenceTerm} {claims : List StorageFundedSlotClaim} {db : PrivateApplicationStore}
  {scope : StorageAssignmentEvidenceScope}

variable {interval : StorageAssignmentInterval}

/-- The rows with one more claim. -/
theorem added (h : t.Journal db.rows claims) (hterm : scope.term = t) (hbounded : t.Bounded)
    (hprepared : scope.assignment.Prepared) (hvalid : intervalValid scope interval = true)
    (hroom : claims.length < MAX_STORAGE_ASSIGNMENT_INTERVALS)
    (hfree : ∀ claim ∈ claims, conflicts claim.interval interval = false) :
    t.Journal (addedRows db.rows scope
        (insertInterval interval (ownedIntervals scope.assignment.commitment claims))
        (insertClaim { assignment := scope.assignment.commitment, interval } claims))
      (insertClaim { assignment := scope.assignment.commitment, interval } claims) := by
  have hadmits : t.admits interval = true := by
    rw [← hterm]
    exact hvalid
  have hne : insertClaim { assignment := scope.assignment.commitment, interval } claims ≠ [] := by
    intro hnil
    have hlen := congrArg List.length hnil
    rw [insertClaim, length_insertBefore] at hlen
    exact absurd hlen (by simp)
  have hslot : scope.fundedSlot = t.slot := by
    rw [← hterm]
    rfl
  have hkey : scope.key = evidenceKey scope.assignment.commitment t.slot.replicaSlot := by
    rw [← hterm]
    rfl
  have hother : t.slot.initializedKey ≠ t.slot.key := t.slot.key_ne_initializedKey.symm
  have hlawful : t.Lawful ((insertClaim { assignment := scope.assignment.commitment, interval } claims).map
      (·.interval)) := by
    rw [insertClaim_intervals]
    refine h.lawful.insert hbounded hadmits fun prior hmem => ?_
    obtain ⟨claim, hclaim, rfl⟩ := List.mem_map.mp hmem
    exact hfree claim hclaim
  refine ⟨fun _ => hbounded, hlawful, fun claim hmem => ?_, ?_, ?_, ?_, fun commitment howns => ?_⟩
  · rcases mem_insertBefore.mp hmem with hclaim | hclaim
    · rw [hclaim]
      exact hprepared.commitment_ne_null
    · exact h.owners claim hclaim
  · rw [insertClaim, length_insertBefore]
    exact hroom
  · rw [if_neg hne, addedRows, hslot, hterm]
    simp [Edit.key, Edit.value, Function.update_of_ne hother.symm]
  · rw [if_neg hne, addedRows, hslot]
    simp [Edit.key, Edit.value]
  · have hkept : ∀ rows : Store Bytes ApplicationRow, ∀ shared marker : ApplicationRow,
        rows.apply [.put t.slot.key shared, .put t.slot.initializedKey marker]
          (evidenceKey commitment t.slot.replicaSlot) = rows (evidenceKey commitment t.slot.replicaSlot) := by
      intro rows shared marker
      refine Store.apply_of_forall_ne ?_
      simp only [List.forall_mem_cons, Edit.key, List.not_mem_nil, false_imp_iff, implies_true, and_true]
      exact ⟨(t.slot.evidenceKey_ne_key _ _).symm, (t.slot.evidenceKey_ne_initializedKey _ _).symm⟩
    rw [addedRows, hslot, hterm, Store.apply_cons, hkept, hkey, Edit.key, Edit.value,
      ownedIntervals_insertClaim hbounded h.lawful]
    by_cases howner : scope.assignment.commitment = commitment
    · have hgrown : insertInterval interval (ownedIntervals commitment claims) ≠ [] := by
        intro hnil
        have hlen := congrArg List.length hnil
        rw [insertInterval, length_insertBefore] at hlen
        exact absurd hlen (by simp)
      rw [if_pos howner, howner, Function.update_self, if_neg hgrown]
    · have hname : evidenceKey commitment t.slot.replicaSlot ≠
          evidenceKey scope.assignment.commitment t.slot.replicaSlot :=
        fun heq => howner (evidenceKey_inj heq).symm
      rw [if_neg howner, Function.update_of_ne hname]
      exact h.mirrored commitment howns

theorem appended (h : t.Journal db.rows claims) (hslot : scope.fundedSlot = t.slot)
    {interval : StorageAssignmentInterval} {rows : Store Bytes ApplicationRow}
    (happended : EvidenceAppended db scope interval rows) :
    scope.term.Bounded ∧ (claims ≠ [] → scope.term = t) ∧ scope.term.Journal db.rows claims ∧
      scope.term.admits interval = true ∧
      scope.term.Journal rows (insertClaim { assignment := scope.assignment.commitment, interval } claims) := by
  obtain ⟨hscope, hvalid, intervals, claims', hread, hclaims, hroom, hfree, hrows⟩ := happended
  obtain ⟨hbounded, hprepared, hunlocked⟩ := scopeValid_true hscope
  have hterm : claims ≠ [] → scope.term = t := fun hne => h.term_eq hne hunlocked hslot hclaims
  have hjournal : scope.term.Journal db.rows claims := by
    by_cases hempty : claims = []
    · rw [hempty] at h ⊢
      exact h.empty hslot
    · rw [hterm hempty]
      exact h
  have hsame : claims = claims' := by
    rw [hjournal.claims_eq hunlocked rfl] at hclaims
    exact Option.some.inj hclaims
  have howned : ownedIntervals scope.assignment.commitment claims = intervals := by
    rw [hjournal.read_eq hunlocked rfl hprepared] at hread
    exact Option.some.inj hread
  rw [← hsame] at hroom hfree hrows
  rw [hrows, ← howned]
  exact ⟨hbounded, hterm, hjournal, hvalid, hjournal.added rfl hbounded hprepared hvalid hroom hfree⟩

/-- **An append of any assignment of the slot keeps the invariant**, and changes nothing
    unless its batch is in the store. -/
theorem append (h : t.Journal db.rows claims) (hslot : scope.fundedSlot = t.slot)
    {verifiedThroughUtc : UInt64} {fate : Fate}
    {result : Option StorageEvidenceAppendResult} {rows : Store Bytes ApplicationRow}
    (happend : appendStorageAssignmentEvidence db scope interval verifiedThroughUtc fate = (result, rows)) :
    (result ≠ some .added ∧ rows = db.rows) ∨
      ((result = some .added ∨ fate = .stored) ∧ scope.term.Journal rows
        (insertClaim { assignment := scope.assignment.commitment, interval } claims)) := by
  rcases append_cases happend with hkept | ⟨hwritten, happended⟩
  · exact .inl hkept
  · obtain ⟨-, -, -, -, hadded⟩ := h.appended hslot happended
    exact .inr ⟨hwritten, hadded⟩

end EvidenceTerm.Journal

/-! ### Runs -/

def FundedSlot.Names (slot : FundedSlot) (name : Bytes) : Prop :=
  name = slot.key ∨ name = slot.initializedKey ∨
    ∃ commitment, slot.Owns commitment ∧ name = evidenceKey commitment slot.replicaSlot

theorem FundedSlot.not_names_assignment (slot : FundedSlot) (context : StorageAssignmentContext) :
    ¬slot.Names (storageAssignmentKey context) := by
  rintro (heq | heq | ⟨commitment, -, heq⟩)
  · simp only [storageAssignmentKey, FundedSlot.key, List.append_assoc] at heq
    exact prefix_ne 19 (by decide) (by decide) (by decide) heq
  · simp only [storageAssignmentKey, FundedSlot.initializedKey, FundedSlot.key, List.append_assoc] at heq
    exact prefix_ne 19 (by decide) (by decide) (by decide) heq
  · simp only [storageAssignmentKey, evidenceKey, List.append_assoc] at heq
    exact prefix_ne 19 (by decide) (by decide) (by decide) heq

/-- The rows after appends of any assignments of one slot, in any order and with any fates
    of their batches, to journals that start empty.  Everything else in the store may change
    between them. -/
inductive EvidenceRun (slot : FundedSlot) : Store Bytes ApplicationRow → Prop where
  | start {rows : Store Bytes ApplicationRow} (hempty : ∀ name, slot.Names name → rows name = none) :
      EvidenceRun slot rows
  | elsewhere {rows rows' : Store Bytes ApplicationRow} (hrun : EvidenceRun slot rows)
      (hsame : ∀ name, slot.Names name → rows' name = rows name) : EvidenceRun slot rows'
  | append {db : PrivateApplicationStore} {scope : StorageAssignmentEvidenceScope}
      {interval : StorageAssignmentInterval} {verifiedThroughUtc : UInt64} {fate : Fate}
      (hrun : EvidenceRun slot db.rows) (hslot : scope.fundedSlot = slot) :
      EvidenceRun slot (appendStorageAssignmentEvidence db scope interval verifiedThroughUtc fate).2

variable {t : EvidenceTerm}

theorem EvidenceTerm.Journal.congr {rows' : Store Bytes ApplicationRow} (h : t.Journal rows claims)
    (hsame : ∀ name, t.slot.Names name → rows' name = rows name) : t.Journal rows' claims where
  bounded := h.bounded
  lawful := h.lawful
  owners := h.owners
  small := h.small
  shared := (hsame _ (.inl rfl)).trans h.shared
  initialized := (hsame _ (.inr (.inl rfl))).trans h.initialized
  mirrored commitment howns := (hsame _ (.inr (.inr ⟨commitment, howns, rfl⟩))).trans (h.mirrored commitment howns)

/-- **The rows of a slot hold claims in every run.** -/
theorem EvidenceRun.journal {slot : FundedSlot} (hrun : EvidenceRun slot rows) :
    ∃ t claims, EvidenceTerm.slot t = slot ∧ t.Journal rows claims := by
  induction hrun with
  | start hempty =>
    refine ⟨{ slot, termStartUtc := 0, periodSeconds := 0 }, [], rfl, fun hne => absurd rfl hne,
      ⟨by simp, List.Pairwise.nil, by simp⟩, by simp, Nat.zero_le _, ?_, ?_, fun commitment howns => ?_⟩
    · exact hempty _ (.inl rfl)
    · exact hempty _ (.inr (.inl rfl))
    · exact hempty _ (.inr (.inr ⟨commitment, howns, rfl⟩))
  | elsewhere _ hsame ih =>
    obtain ⟨t, claims, rfl, hjournal⟩ := ih
    exact ⟨t, claims, rfl, hjournal.congr hsame⟩
  | append _ hslot ih =>
    obtain ⟨t, claims, rfl, hjournal⟩ := ih
    rcases hjournal.append hslot (Prod.mk.eta).symm with ⟨-, hrows⟩ | ⟨-, hadded⟩
    · rw [hrows]
      exact ⟨t, claims, rfl, hjournal⟩
    · exact ⟨_, _, hslot, hadded⟩

namespace EvidenceTerm.Journal

variable {t : EvidenceTerm} {rows : Store Bytes ApplicationRow} {claims : List StorageFundedSlotClaim}

theorem sorted (h : t.Journal rows claims) : claims.Pairwise fun a b =>
    a.interval.startUtc < b.interval.startUtc ∧ a.interval.endUtc ≤ b.interval.startUtc := by
  by_cases hne : claims = []
  · rw [hne]
    exact List.Pairwise.nil
  · have hlaid := h.lawful.laid
    rw [Laid, List.pairwise_map] at hlaid
    refine List.Pairwise.imp_of_mem (fun {a b} ha _ hab => ?_) hlaid
    have hproper := h.lawful.proper (h.bounded hne) a.interval (List.mem_map_of_mem ha)
    rw [UInt64.lt_iff_toNat_lt, UInt64.le_iff_toNat_le]
    exact ⟨Nat.lt_of_lt_of_le hproper hab, hab⟩

end EvidenceTerm.Journal

end

section Sample

attribute [local instance] Crypto.sample

def sampleEvidenceScope : StorageAssignmentEvidenceScope where
  assignment :=
    { context :=
        { networkBinding := FixedBytes.leading 31 1, publication := FixedBytes.leading 31 2
          chunk := FixedBytes.leading 31 3, finalizedSeed := FixedBytes.leading 31 4
          payer := FixedBytes.leading 31 5, epoch := 1, termStart := 10, termEnd := 12, replicas := 1 }
      eligible := [{ storageId := FixedBytes.leading 31 6, payoutAccount := FixedBytes.leading 31 7 }]
      selected := [{ storageId := FixedBytes.leading 31 6, payoutAccount := FixedBytes.leading 31 7 }]
      commitment := FixedBytes.leading 31 1 }
  replicaSlot := 0
  termStartUtc := 1000
  periodSeconds := 100

end Sample

end Cybou

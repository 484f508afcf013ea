import Cybou.ReplicaPlacement

/-! # Replicas of one chunk are independent (`StorageService::Place` of `storage_service_repair.cpp`)

`ChunkJob.Good` is the invariant of the planning loop: the providers that were asked are
those that were attempted, each once, and the used sets cover the replicas.  A plan reserves
what it takes (`ChunkJob.Planned`), so its providers are independent of the replicas and of
each other, and an admission can only record a planned provider whose receipt was saved.
Every round attempts a provider more, which bounds the rounds.
-/

namespace Cybou

open Library ProviderSelector

section

variable [Crypto]

/-! ### Logged calls -/

def PlaceEvent.asked : PlaceEvent → Option StorageEndpoint
  | .put provider => some provider
  | _ => none

def PlaceEvent.recorded : PlaceEvent → Option StorageEndpoint
  | .replica provider => some provider
  | _ => none

def askedOf (events : List PlaceEvent) : List (FixedBytes 32) :=
  (events.filterMap PlaceEvent.asked).map StorageEndpoint.storageId

def recordedOf (events : List PlaceEvent) : List StorageEndpoint := events.filterMap PlaceEvent.recorded

omit [Crypto] in
theorem askedOf_append (events events' : List PlaceEvent) : askedOf (events ++ events') = askedOf events ++ askedOf events' := by
  unfold askedOf
  rw [List.filterMap_append, List.map_append]

omit [Crypto] in
theorem recordedOf_append (events events' : List PlaceEvent) :
    recordedOf (events ++ events') = recordedOf events ++ recordedOf events' := List.filterMap_append

omit [Crypto] in
theorem askedOf_put (providers : List StorageEndpoint) :
    askedOf (providers.map .put) = providers.map StorageEndpoint.storageId := by
  unfold askedOf
  rw [List.filterMap_map]
  exact congrArg _ (List.filterMap_some)

omit [Crypto] in
theorem recordedOf_put (providers : List StorageEndpoint) : recordedOf (providers.map .put) = [] := by
  unfold recordedOf
  rw [List.filterMap_map]
  exact List.filterMap_eq_nil_iff.mpr fun _ _ => rfl

namespace ChunkJob

variable {job : ChunkJob}

/-! ### Independent replicas -/

omit [Crypto] in
/-- **The identity of a provider** that is listed once. -/
theorem identityOf_provider (hunique : (job.providers.map StorageEndpoint.storageId).Nodup) {provider : StorageEndpoint}
    (h : provider ∈ job.providers) : job.identityOf provider = economicIdentity provider := by
  unfold identityOf
  cases hfind : job.providers.find? fun other => decide (other.storageId = provider.storageId) with
  | none =>
    rw [List.find?_eq_none] at hfind
    exact absurd (decide_eq_true rfl) (hfind provider h)
  | some other =>
    have heq : other.storageId = provider.storageId := by simpa using List.find?_some hfind
    rw [List.inj_on_of_nodup_map hunique (List.mem_of_find?_eq_some hfind) h heq]

/-- Two replicas that would not be lost together. -/
structure Independent (job : ChunkJob) (a b : StorageEndpoint) : Prop where
  storageId : a.storageId ≠ b.storageId
  identity : job.identityOf a ≠ job.identityOf b
  address : job.diverse = true → a.address ≠ b.address

omit [Crypto] in
theorem Independent.symm {a b : StorageEndpoint} (h : job.Independent a b) : job.Independent b a :=
  ⟨h.storageId.symm, h.identity.symm, fun hdiverse => (h.address hdiverse).symm⟩

/-- A receipt that the provider itself signed was saved before the replica was recorded. -/
def SavedFirst (job : ChunkJob) (events : List PlaceEvent) (replica : StorageEndpoint) : Prop :=
  ∃ before receipt after, events = before ++ .replica replica :: after ∧
    .saveReceipt replica.storageId receipt true ∈ before ∧
    verifyStorageReceipt receipt job.networkBinding job.operationId job.chunkId job.size = some replica.storageId

variable {events : List PlaceEvent}

theorem SavedFirst.append {replica : StorageEndpoint} (h : job.SavedFirst events replica)
    (more : List PlaceEvent) : job.SavedFirst (events ++ more) replica := by
  obtain ⟨before, receipt, after, rfl, hsaved, hsigned⟩ := h
  exact ⟨before, receipt, after ++ more, by rw [List.append_assoc, List.cons_append], hsaved, hsigned⟩

/-- **What may become of the replicas of a chunk.** -/
structure Placed (job : ChunkJob) (before after : List StorageEndpoint) (events : List PlaceEvent) : Prop where
  grows : after = before ++ recordedOf events
  apart : ∀ a ∈ recordedOf events, ∀ r ∈ before, job.Independent a r
  pairwise : (recordedOf events).Pairwise job.Independent
  machine : job.diverse = true → ∀ a ∈ recordedOf events, job.sameMachine a.address = false
  saved : ∀ a ∈ recordedOf events, job.SavedFirst events a

variable {after before : List StorageEndpoint}

theorem Placed.log (h : job.Placed before after events)
    {more : List PlaceEvent} (hmore : recordedOf more = []) : job.Placed before after (events ++ more) := by
  have hsame : recordedOf (events ++ more) = recordedOf events := by rw [recordedOf_append, hmore, List.append_nil]
  obtain ⟨hgrows, hapart, hpairwise, hmachine, hsaved⟩ := h
  rw [← hsame] at hgrows hapart hpairwise hmachine hsaved
  exact ⟨hgrows, hapart, hpairwise, hmachine, fun a ha => (hsaved a ha).append more⟩

theorem Placed.record (h : job.Placed before after events)
    {provider : StorageEndpoint} (hapart : ∀ r ∈ after, job.Independent provider r)
    (hmachine : job.diverse = true → job.sameMachine provider.address = false) {first : List PlaceEvent}
    (hfirst : recordedOf first = []) {receipt : Bytes} (hsaved : .saveReceipt provider.storageId receipt true ∈ first)
    (hsigned : verifyStorageReceipt receipt job.networkBinding job.operationId job.chunkId job.size =
      some provider.storageId) :
    job.Placed before (after ++ [provider]) (events ++ (first ++ [.replica provider])) := by
  have hrecorded : recordedOf (events ++ (first ++ [.replica provider])) = recordedOf events ++ [provider] := by
    rw [recordedOf_append, recordedOf_append, hfirst, List.nil_append]
    rfl
  rw [h.grows, List.forall_mem_append] at hapart
  refine ⟨?_, fun a ha => ?_, ?_, fun hdiverse a ha => ?_, fun a ha => ?_⟩
  · rw [hrecorded, h.grows, List.append_assoc]
  · rw [hrecorded, List.mem_append, List.mem_singleton] at ha
    rcases ha with ha | rfl
    · exact h.apart a ha
    · exact hapart.1
  · rw [hrecorded]
    refine List.pairwise_append.mpr ⟨h.pairwise, List.pairwise_singleton _ _, fun a ha b hb => ?_⟩
    rw [List.mem_singleton.mp hb]
    exact (hapart.2 a ha).symm
  · rw [hrecorded, List.mem_append, List.mem_singleton] at ha
    rcases ha with ha | rfl
    · exact h.machine hdiverse a ha
    · exact hmachine hdiverse
  · rw [hrecorded, List.mem_append, List.mem_singleton] at ha
    rcases ha with ha | rfl
    · exact (h.saved a ha).append _
    · exact ⟨events ++ first, receipt, [], by rw [List.append_assoc], List.mem_append_right _ hsaved, hsigned⟩

/-! ### Plans -/

/-- What a plan of at most `limit` providers has reserved. -/
structure Planned (job : ChunkJob) (s : ChunkPlacing) (limit : Nat) (plan : ReplicaPlan) : Prop where
  length : plan.providers.length ≤ limit
  member : ∀ p ∈ plan.providers, p ∈ job.providers
  fresh : ∀ p ∈ plan.providers, hasProvider s.replicas p = false ∧ economicIdentity p ∉ s.usedIdentities ∧
    (job.diverse = true → job.sameMachine p.address = false ∧ p.address ∉ s.usedAddresses)
  apart : plan.providers.Pairwise fun a b => economicIdentity a ≠ economicIdentity b ∧
    (job.diverse = true → a.address ≠ b.address)
  attempted : plan.attempted = s.attempted ++ plan.providers.map StorageEndpoint.storageId
  nodup : plan.attempted.Nodup
  reserved : plan.reserved = s.usedIdentities ++ plan.providers.map economicIdentity
  reservedAddresses : plan.reservedAddresses = s.usedAddresses ++ plan.providers.map StorageEndpoint.address

variable {s : ChunkPlacing} {limit : Nat} {plan : ReplicaPlan}

omit [Crypto] in
/-- The step: a plan grows by one provider that is independent of the others. -/
theorem Planned.step (h : job.Planned s limit plan) {provider : StorageEndpoint} (hprovider : provider ∈ job.providers) :
    job.Planned s limit (job.planStep s.replicas limit plan provider) := by
  unfold planStep
  split
  · exact h
  next hroom =>
  split
  · exact h
  next hnew =>
  split
  · exact h
  next hdiverse =>
  rw [not_or, not_or, Bool.not_eq_true] at hnew
  obtain ⟨hattempted, hreplica, hidentity⟩ := hnew
  rw [h.reserved, List.mem_append, not_or] at hidentity
  rw [h.reservedAddresses, not_and, not_or, Bool.not_eq_true, List.mem_append, not_or] at hdiverse
  refine ⟨?_, ?_, ?_, ?_, ?_, ?_, ?_, ?_⟩
  · rw [List.length_append, List.length_singleton]
    omega
  · exact List.forall_mem_append.mpr ⟨h.member, fun p hp => List.mem_singleton.mp hp ▸ hprovider⟩
  · refine List.forall_mem_append.mpr ⟨h.fresh, fun p hp => ?_⟩
    rw [List.mem_singleton.mp hp]
    exact ⟨hreplica, hidentity.1, fun hd => ⟨(hdiverse hd).1, (hdiverse hd).2.1⟩⟩
  · refine List.pairwise_append.mpr ⟨h.apart, List.pairwise_singleton _ _, fun a ha b hb => ?_⟩
    rw [List.mem_singleton.mp hb]
    constructor
    · exact fun heq => hidentity.2 (heq ▸ List.mem_map_of_mem ha)
    · exact fun hd heq => (hdiverse hd).2.2 (heq ▸ List.mem_map_of_mem ha)
  · rw [h.attempted, List.map_append, List.append_assoc]
    rfl
  · refine List.nodup_append.mpr ⟨h.nodup, List.nodup_singleton _, fun a ha b hb heq => ?_⟩
    rw [heq, List.mem_singleton.mp hb] at ha
    exact hattempted ha
  · rw [h.reserved, List.map_append, List.append_assoc]
    rfl
  · rw [h.reservedAddresses, List.map_append, List.append_assoc]
    rfl

omit [Crypto] in
/-- **The plan of a round.** -/
theorem planned_plan (hnodup : s.attempted.Nodup) :
    job.Planned s (min 4 (job.target - s.replicas.length)) (job.plan s) := by
  have hfold : ∀ l : List StorageEndpoint, (∀ p ∈ l, p ∈ job.providers) → ∀ plan : ReplicaPlan,
      job.Planned s (min 4 (job.target - s.replicas.length)) plan →
      job.Planned s (min 4 (job.target - s.replicas.length))
        (l.foldl (job.planStep s.replicas (min 4 (job.target - s.replicas.length))) plan) := by
    intro l
    induction l with
    | nil => exact fun _ plan h => h
    | cons p l ih =>
      intro hl plan h
      obtain ⟨hp, hl⟩ := List.forall_mem_cons.mp hl
      exact ih hl _ (h.step hp)
  refine hfold job.providers (fun _ hp => hp) _ ⟨Nat.zero_le _, List.forall_mem_nil _, List.forall_mem_nil _, List.Pairwise.nil,
    (List.append_nil _).symm, hnodup, (List.append_nil _).symm, (List.append_nil _).symm⟩

/-! ### Admissions -/

structure Good (job : ChunkJob) (before : List StorageEndpoint) (s : ChunkPlacing) : Prop where
  nodup : s.attempted.Nodup
  known : s.attempted ⊆ job.providers.map StorageEndpoint.storageId
  asked : askedOf s.events = s.attempted
  identities : ∀ r ∈ s.replicas, job.identityOf r ∈ s.usedIdentities
  addresses : ∀ r ∈ s.replicas, r.address ∈ s.usedAddresses
  placed : job.Placed before s.replicas s.events

/-- **One admission**: nothing is recorded, or the provider is after its receipt was saved. -/
theorem admit_cases (answers : StorageEndpoint → AdmissionAnswer) (s : ChunkPlacing) (provider : StorageEndpoint) :
    (∃ events error, job.admitReplica answers s provider = { s with admissionError := error, events := s.events ++ events } ∧
      askedOf events = [] ∧ recordedOf events = []) ∨
    (∃ receipt, verifyStorageReceipt receipt job.networkBinding job.operationId job.chunkId job.size =
        some provider.storageId ∧
      job.admitReplica answers s provider = { s with
        replicas := s.replicas ++ [provider]
        usedIdentities := s.usedIdentities ++ [economicIdentity provider]
        usedAddresses := s.usedAddresses ++ [provider.address]
        changed := true
        events := s.events ++ ([.recordEvidence provider.storageId true, .creditReplica provider.storageId true,
          .saveReceipt provider.storageId receipt true] ++ [.replica provider]) }) := by
  unfold admitReplica
  dsimp only
  cases (answers provider).result with
  | none => exact .inl ⟨[], _, by rw [List.append_nil]; rfl, rfl, rfl⟩
  | some admitted =>
    dsimp only
    split
    · exact .inl ⟨[], _, by rw [List.append_nil]; rfl, rfl, rfl⟩
    split
    · exact .inl ⟨[], _, by rw [List.append_nil]; rfl, rfl, rfl⟩
    next hsigned =>
    split
    · exact .inl ⟨_, _, rfl, rfl, rfl⟩
    split
    · exact .inl ⟨_, _, rfl, rfl, rfl⟩
    split
    · exact .inl ⟨_, s.admissionError, rfl, rfl, rfl⟩
    split
    · exact .inl ⟨_, _, by unfold ChunkPlacing.log ChunkPlacing.refuse; rw [List.append_assoc], rfl, rfl⟩
    · refine .inr ⟨admitted.receipt, not_not.mp hsigned, ?_⟩
      unfold ChunkPlacing.log
      rw [List.append_assoc]
      rfl

/-- **The admissions of a round.** -/
theorem Good.admits (h : job.Good before s)
    (hunique : (job.providers.map StorageEndpoint.storageId).Nodup) (answers : StorageEndpoint → AdmissionAnswer)
    {planned : List StorageEndpoint} (hfresh : ∀ p ∈ planned, p ∈ job.providers ∧
      (∀ r ∈ s.replicas, job.Independent p r) ∧ (job.diverse = true → job.sameMachine p.address = false))
    (hpairwise : planned.Pairwise job.Independent) :
    job.Good before (planned.foldl (job.admitReplica answers) s) ∧
      (planned.foldl (job.admitReplica answers) s).attempted = s.attempted ∧
      (planned.foldl (job.admitReplica answers) s).replicas.length ≤ s.replicas.length + planned.length := by
  induction planned generalizing s with
  | nil => exact ⟨h, rfl, Nat.le_refl _⟩
  | cons provider planned ih =>
    obtain ⟨⟨hmember, hapart, hmachine⟩, hrest⟩ := List.forall_mem_cons.mp hfresh
    obtain ⟨hother, hpairwise⟩ := List.pairwise_cons.mp hpairwise
    rw [List.foldl_cons, List.length_cons]
    rcases admit_cases answers s provider with ⟨events, error, hplaced, hasked, hrecorded⟩ | ⟨receipt, hsigned, hplaced⟩
    · rw [hplaced]
      have hgood : job.Good before { s with admissionError := error, events := s.events ++ events } := by
        refine ⟨h.nodup, h.known, ?_, h.identities, h.addresses, h.placed.log hrecorded⟩
        rw [askedOf_append, hasked, List.append_nil]
        exact h.asked
      obtain ⟨hgood', hattempted, hlength⟩ := ih hgood hrest hpairwise
      refine ⟨hgood', hattempted, Nat.le_trans hlength ?_⟩
      dsimp only
      omega
    · rw [hplaced]
      have hgood : job.Good before { s with
          replicas := s.replicas ++ [provider]
          usedIdentities := s.usedIdentities ++ [economicIdentity provider]
          usedAddresses := s.usedAddresses ++ [provider.address]
          changed := true
          events := s.events ++ ([.recordEvidence provider.storageId true, .creditReplica provider.storageId true,
            .saveReceipt provider.storageId receipt true] ++ [.replica provider]) } := by
        refine ⟨h.nodup, h.known, ?_, ?_, ?_, h.placed.record hapart hmachine rfl (by simp) hsigned⟩
        · rw [askedOf_append, h.asked]
          exact List.append_nil _
        · refine List.forall_mem_append.mpr ⟨fun r hr => List.mem_append_left _ (h.identities r hr), fun r hr => ?_⟩
          rw [List.mem_singleton.mp hr, identityOf_provider hunique hmember]
          exact List.mem_append_right _ List.mem_cons_self
        · refine List.forall_mem_append.mpr ⟨fun r hr => List.mem_append_left _ (h.addresses r hr), fun r hr => ?_⟩
          rw [List.mem_singleton.mp hr]
          exact List.mem_append_right _ List.mem_cons_self
      have hfresh' : ∀ p ∈ planned, p ∈ job.providers ∧ (∀ r ∈ s.replicas ++ [provider], job.Independent p r) ∧
          (job.diverse = true → job.sameMachine p.address = false) := by
        intro p hp
        obtain ⟨hp', hapart', hmachine'⟩ := hrest p hp
        refine ⟨hp', List.forall_mem_append.mpr ⟨hapart', fun r hr => ?_⟩, hmachine'⟩
        rw [List.mem_singleton.mp hr]
        exact (hother p hp).symm
      obtain ⟨hgood', hattempted, hlength⟩ := ih hgood hfresh' hpairwise
      refine ⟨hgood', hattempted, Nat.le_trans hlength ?_⟩
      rw [List.length_append, List.length_singleton]
      omega

/-! ### Rounds -/

theorem Good.independent (h : job.Good before s)
    (hunique : (job.providers.map StorageEndpoint.storageId).Nodup) (hplanned : job.Planned s limit plan) :
    (∀ p ∈ plan.providers, p ∈ job.providers ∧ (∀ r ∈ s.replicas, job.Independent p r) ∧
      (job.diverse = true → job.sameMachine p.address = false)) ∧ plan.providers.Pairwise job.Independent := by
  have hidentity : ∀ p ∈ plan.providers, job.identityOf p = economicIdentity p := fun p hp =>
    identityOf_provider hunique (hplanned.member p hp)
  constructor
  · intro p hp
    obtain ⟨hreplica, hnew, hdiverse⟩ := hplanned.fresh p hp
    refine ⟨hplanned.member p hp, fun r hr => ⟨?_, ?_, ?_⟩, fun hd => (hdiverse hd).1⟩
    · exact (hasProvider_eq_false.mp hreplica r hr).symm
    · rw [hidentity p hp]
      exact fun heq => hnew (heq ▸ h.identities r hr)
    · exact fun hd heq => (hdiverse hd).2 (heq ▸ h.addresses r hr)
  · have hnodup := hplanned.nodup
    rw [hplanned.attempted, List.nodup_append] at hnodup
    have hstorage : plan.providers.Pairwise fun a b => a.storageId ≠ b.storageId := List.pairwise_map.mp hnodup.2.1
    refine (hstorage.and hplanned.apart).imp_of_mem fun ha hb hab => ?_
    obtain ⟨hstorageId, hne, haddress⟩ := hab
    exact ⟨hstorageId, by rw [hidentity _ ha, hidentity _ hb]; exact hne, haddress⟩

theorem Good.ask (h : job.Good before s) (hplanned : job.Planned s limit plan) :
    job.Good before { s with attempted := plan.attempted, events := s.events ++ plan.providers.map .put } := by
  refine ⟨hplanned.nodup, ?_, ?_, h.identities, h.addresses, h.placed.log (recordedOf_put _)⟩
  · dsimp only
    rw [hplanned.attempted]
    exact List.append_subset.mpr ⟨h.known, List.map_subset _ hplanned.member⟩
  · rw [askedOf_append, h.asked, askedOf_put, hplanned.attempted]

theorem Good.thrown (h : job.Good before s) (hplanned : job.Planned s limit plan)
    (submitted : StorageEndpoint → Bool) :
    (askedOf (s.events ++ (plan.providers.takeWhile submitted).map .put)).Nodup ∧
      job.Placed before s.replicas (s.events ++ (plan.providers.takeWhile submitted).map .put) := by
  refine ⟨?_, h.placed.log (recordedOf_put _)⟩
  rw [askedOf_append, h.asked, askedOf_put]
  refine hplanned.nodup.sublist ?_
  rw [hplanned.attempted]
  exact ((List.takeWhile_sublist submitted).map _).append_left _

structure ChunkPlaced (job : ChunkJob) (before : List StorageEndpoint) (after : List StorageEndpoint)
    (events : List PlaceEvent) : Prop where
  askedOnce : (askedOf events).Nodup
  limit : after.length ≤ job.target
  placed : job.Placed before after events

/-- **The planning loop** ends, having asked each provider at most once. -/
theorem loop_spec (hunique : (job.providers.map StorageEndpoint.storageId).Nodup)
    (rounds : Nat → RoundAnswers) {fuel round : Nat} (h : job.Good before s) (hlimit : s.replicas.length ≤ job.target)
    (hfuel : job.providers.length < fuel + s.attempted.length) :
    (job.loop rounds fuel round s).1 ≠ .unfinished ∧
      job.ChunkPlaced before (job.loop rounds fuel round s).2.replicas (job.loop rounds fuel round s).2.events := by
  induction fuel generalizing round s with
  | zero =>
    have hle := (List.subperm_of_subset h.nodup h.known).length_le
    rw [List.length_map] at hle
    omega
  | succ fuel ih =>
    have hleft : job.ChunkPlaced before s.replicas s.events := ⟨h.asked ▸ h.nodup, hlimit, h.placed⟩
    rw [loop]
    split
    · exact ⟨Exit.noConfusion, hleft⟩
    next hshort =>
    have hplanned := @planned_plan job s h.nodup
    dsimp only
    split
    · exact ⟨Exit.noConfusion, hleft⟩
    next hplan =>
    split
    · obtain ⟨honce, hplaced⟩ := h.thrown hplanned (rounds round).submitted
      exact ⟨Exit.noConfusion, honce, hlimit, hplaced⟩
    next hsubmitted =>
    rw [Bool.not_eq_false, List.all_eq_true] at hsubmitted
    rw [List.takeWhile_eq_self_iff.mpr hsubmitted]
    obtain ⟨hfresh, hpairwise⟩ := h.independent hunique hplanned
    obtain ⟨hgood, hattempted, hlength⟩ := (h.ask hplanned).admits hunique (rounds round).admission hfresh hpairwise
    have hmost := hplanned.length
    have hsome := List.length_pos_iff.mpr hplan
    have htarget : (((job.plan s).providers.foldl (job.admitReplica (rounds round).admission) { s with
        attempted := (job.plan s).attempted
        events := s.events ++ (job.plan s).providers.map .put }).replicas).length ≤ job.target := by
      dsimp only at hlength
      omega
    have hmore : s.attempted.length + (job.plan s).providers.length = (job.plan s).attempted.length := by
      rw [hplanned.attempted, List.length_append, List.length_map]
    generalize (job.plan s).providers.foldl (job.admitReplica (rounds round).admission) { s with
        attempted := (job.plan s).attempted
        events := s.events ++ (job.plan s).providers.map .put } = next at hgood hattempted htarget ⊢
    dsimp only at hattempted
    have hnext : job.providers.length < fuel + next.attempted.length := by
      rw [hattempted]
      omega
    split
    · exact ih hgood htarget hnext
    have hsaved : job.Good before (next.log [.savePlacement (rounds round).placementSaved]) := by
      refine ⟨hgood.nodup, hgood.known, ?_, hgood.identities, hgood.addresses, hgood.placed.log rfl⟩
      refine (askedOf_append _ _).trans ?_
      rw [hgood.asked]
      exact List.append_nil _
    split
    · exact ⟨Exit.noConfusion, hsaved.asked ▸ hsaved.nodup, htarget, hsaved.placed⟩
    · exact ih hsaved htarget hnext

/-- **The loop over one chunk**, whatever the answers are. -/
theorem placeChunk_spec (hunique : (job.providers.map StorageEndpoint.storageId).Nodup) (rounds : Nat → RoundAnswers)
    {replicas : List StorageEndpoint} (hlimit : replicas.length ≤ job.target) (changed : Bool) (admissionError : Bytes) :
    (job.placeChunk rounds replicas changed admissionError).1 ≠ .unfinished ∧
      job.ChunkPlaced replicas (job.placeChunk rounds replicas changed admissionError).2.replicas
        (job.placeChunk rounds replicas changed admissionError).2.events := by
  refine loop_spec hunique rounds ⟨List.nodup_nil, List.nil_subset _, rfl, fun r hr => List.mem_map_of_mem hr,
    fun r hr => List.mem_map_of_mem hr, ?_⟩ hlimit (Nat.lt_succ_self _)
  exact ⟨(List.append_nil _).symm, List.forall_mem_nil _, List.Pairwise.nil, fun _ => List.forall_mem_nil _,
    List.forall_mem_nil _⟩

theorem chunkPlaced_untouched {replicas : List StorageEndpoint} (hlimit : replicas.length ≤ job.target) :
    job.ChunkPlaced replicas replicas [] :=
  ⟨List.nodup_nil, hlimit, (List.append_nil _).symm, List.forall_mem_nil _, List.Pairwise.nil,
    fun _ => List.forall_mem_nil _, List.forall_mem_nil _⟩

omit [Crypto] in
theorem identityOf_perm {job' : ChunkJob} (hunique : (job.providers.map StorageEndpoint.storageId).Nodup)
    (hperm : job'.providers.Perm job.providers) (replica : StorageEndpoint) :
    job'.identityOf replica = job.identityOf replica := by
  have hunique' : (job'.providers.map StorageEndpoint.storageId).Nodup := (hperm.map _).nodup_iff.mpr hunique
  unfold identityOf
  cases hfind : job.providers.find? fun provider => decide (provider.storageId = replica.storageId) with
  | none =>
    have hfind' : (job'.providers.find? fun provider => decide (provider.storageId = replica.storageId)) = none := by
      rw [List.find?_eq_none] at hfind ⊢
      exact fun provider hprovider => hfind provider (hperm.mem_iff.mp hprovider)
    rw [hfind']
  | some provider =>
    have hprovider : provider.storageId = replica.storageId := by simpa using List.find?_some hfind
    have hmem := List.mem_of_find?_eq_some hfind
    cases hfind' : job'.providers.find? fun provider => decide (provider.storageId = replica.storageId) with
    | none =>
      rw [List.find?_eq_none] at hfind'
      exact absurd (decide_eq_true hprovider) (hfind' provider (hperm.mem_iff.mpr hmem))
    | some provider' =>
      have hprovider' : provider'.storageId = replica.storageId := by simpa using List.find?_some hfind'
      have hmem' := hperm.mem_iff.mp (List.mem_of_find?_eq_some hfind')
      rw [List.inj_on_of_nodup_map hunique hmem' hmem (hprovider'.trans hprovider.symm)]

theorem ChunkPlaced.perm (h : job.ChunkPlaced before after events) {providers : List StorageEndpoint}
    (hunique : (job.providers.map StorageEndpoint.storageId).Nodup) (hperm : providers.Perm job.providers) :
    ({ job with providers } : ChunkJob).ChunkPlaced before after events := by
  have hindependent : ∀ a b, job.Independent a b → ({ job with providers } : ChunkJob).Independent a b := by
    intro a b hab
    refine ⟨hab.storageId, ?_, hab.address⟩
    rw [@identityOf_perm job { job with providers } hunique hperm, @identityOf_perm job { job with providers } hunique hperm]
    exact hab.identity
  obtain ⟨honce, hlimit, hgrows, hapart, hpairwise, hmachine, hsaved⟩ := h
  exact ⟨honce, hlimit, hgrows, fun a ha r hr => hindependent a r (hapart a ha r hr), hpairwise.imp (hindependent _ _),
    hmachine, hsaved⟩

end ChunkJob

/-! ### All chunks -/

namespace PlaceEnv

variable {env : PlaceEnv} {target : Nat} {operationId : Hash256}

def chunkJob (env : PlaceEnv) (target : Nat) (operationId : Hash256) (providers : List StorageEndpoint) (i : Nat)
    (leaf : ChunkId) : ChunkJob :=
  env.job target operationId providers i leaf ((env.fetched i).getD [])

/-- **The loop over the chunks**: each is placed, or left alone. -/
theorem placeChunks_spec {providers : List StorageEndpoint} (hunique : (providers.map StorageEndpoint.storageId).Nodup)
    {i : Nat} {rows : List (ChunkId × List StorageEndpoint)} (hlimit : ∀ row ∈ rows, row.2.length ≤ target) (s : Placing) :
    (env.placeChunks target operationId providers i rows s).1 ≠ .unfinished ∧
    ∃ runs, (env.placeChunks target operationId providers i rows s).2.chunks = s.chunks ++ runs ∧
      runs.length = rows.length ∧
      ∀ k row run, rows[k]? = some row → runs[k]? = some run →
        (env.chunkJob target operationId providers (i + k) row.1).ChunkPlaced row.2 run.replicas run.events := by
  induction rows generalizing i s with
  | nil => exact ⟨ChunkJob.Exit.noConfusion, [], (List.append_nil _).symm, rfl, fun k row run hrow => by cases hrow⟩
  | cons row rows ih =>
    obtain ⟨leaf, replicas⟩ := row
    obtain ⟨hfirst, hlimit⟩ := List.forall_mem_cons.mp hlimit
    -- a chunk that is handled first, and the chunks after it
    have hcons : ∀ (run : ChunkRun) (runs : List ChunkRun),
        (env.chunkJob target operationId providers i leaf).ChunkPlaced replicas run.replicas run.events →
        (∀ k row run, rows[k]? = some row → runs[k]? = some run →
          (env.chunkJob target operationId providers (i + 1 + k) row.1).ChunkPlaced row.2 run.replicas run.events) →
        ∀ k row run', ((leaf, replicas) :: rows)[k]? = some row → (run :: runs)[k]? = some run' →
          (env.chunkJob target operationId providers (i + k) row.1).ChunkPlaced row.2 run'.replicas run'.events := by
      intro run runs hrun hruns k row run' hrow hrun'
      cases k with
      | zero =>
        cases hrow
        cases hrun'
        exact hrun
      | succ k =>
        have hnext := hruns k row run' hrow hrun'
        rwa [Nat.add_assoc, Nat.add_comm 1 k] at hnext
    have hkeep : ∀ s : Placing, (env.placeChunks target operationId providers (i + 1) rows
          { s with chunks := s.chunks ++ [.untouched replicas] }).1 ≠ .unfinished ∧
        ∃ runs, (env.placeChunks target operationId providers (i + 1) rows
            { s with chunks := s.chunks ++ [.untouched replicas] }).2.chunks = s.chunks ++ runs ∧
          runs.length = ((leaf, replicas) :: rows).length ∧
          ∀ k row run, ((leaf, replicas) :: rows)[k]? = some row → runs[k]? = some run →
            (env.chunkJob target operationId providers (i + k) row.1).ChunkPlaced row.2 run.replicas run.events := by
      intro s
      obtain ⟨hexit, runs, hchunks, hlength, hruns⟩ := @ih (i + 1) hlimit { s with chunks := s.chunks ++ [.untouched replicas] }
      refine ⟨hexit, .untouched replicas :: runs, ?_, ?_, hcons _ _ (ChunkJob.chunkPlaced_untouched hfirst) hruns⟩
      · rw [hchunks, List.append_assoc]
        rfl
      · rw [List.length_cons, List.length_cons, hlength]
    rw [placeChunks]
    dsimp only
    split
    · exact hkeep s
    · cases hfetched : env.fetched i with
      | none => exact hkeep { s with contentMissing := true }
      | some bytes =>
        have hjob : env.chunkJob target operationId providers i leaf = env.job target operationId providers i leaf bytes := by
          unfold chunkJob
          rw [hfetched, Option.getD_some]
        obtain ⟨hfinished, hplaced⟩ := @ChunkJob.placeChunk_spec _ (env.job target operationId providers i leaf bytes) hunique
          (env.rounds i) replicas hfirst s.changed s.admissionError
        dsimp only
        generalize (env.job target operationId providers i leaf bytes).placeChunk (env.rounds i) replicas s.changed
          s.admissionError = result at hfinished hplaced ⊢
        obtain ⟨exit, placed⟩ := result
        rw [← hjob] at hplaced
        dsimp only at hfinished hplaced ⊢
        split
        · obtain ⟨hexit, runs, hchunks, hlength, hruns⟩ := @ih (i + 1) hlimit
            { s with
              chunks := s.chunks ++ [{ replicas := placed.replicas, events := placed.events }]
              changed := placed.changed
              admissionError := placed.admissionError }
          refine ⟨hexit, _ :: runs, ?_, ?_, hcons { replicas := placed.replicas, events := placed.events } runs hplaced hruns⟩
          · rw [hchunks, List.append_assoc]
            rfl
          · rw [List.length_cons, List.length_cons, hlength]
        · refine ⟨hfinished, { replicas := placed.replicas, events := placed.events } ::
              rows.map (fun row => .untouched row.2), ?_, ?_, hcons _ _ hplaced fun k row run hrow hrun => ?_⟩
          · rw [List.append_assoc]
            rfl
          · rw [List.length_cons, List.length_cons, List.length_map]
          · rw [List.getElem?_map, hrow] at hrun
            cases hrun
            exact ChunkJob.chunkPlaced_untouched (hlimit row (List.mem_of_getElem? hrow))

end PlaceEnv

/-! ### The whole call -/

def PlaceRun.Sound (env : PlaceEnv) (target : Nat) (stored : Placement) (run : PlaceRun) : Prop :=
  run.chunks.length = stored.replicas.length ∧ run.placement.replicas = run.chunks.map ChunkRun.replicas ∧
    ∀ i leaf before chunk, stored.leaves[i]? = some leaf → stored.replicas[i]? = some before → run.chunks[i]? = some chunk →
      (env.chunkJob target stored.operationId env.providers i leaf).ChunkPlaced before chunk.replicas chunk.events

theorem PlaceRun.Sound.untouched {env : PlaceEnv} {target : Nat} {stored : Placement}
    (hlimit : ∀ replicas ∈ stored.replicas, replicas.length ≤ target) (outcome : PlaceOutcome) :
    PlaceRun.Sound env target stored { outcome, placement := stored, chunks := stored.replicas.map .untouched } := by
  refine ⟨List.length_map _, ?_, fun i leaf before chunk _ hbefore hchunk => ?_⟩
  · rw [List.map_map]
    exact (List.map_id _).symm
  · rw [List.getElem?_map, hbefore] at hchunk
    cases hchunk
    exact ChunkJob.chunkPlaced_untouched (hlimit before (List.mem_of_getElem? hbefore))

/-- **Placing replicas.**  Whatever the transport, the ledger and the database answer, the call
    ends once the providers are ordered, which keeps them and puts those of one economic
    identity together.  Each chunk has asked every provider at most once, has no more replicas
    than the target, and each replica that was added is independent of all others, with a
    receipt that its provider signed and that was saved before. -/
theorem replicas_placed (target : Nat) {env : PlaceEnv} {placement : Placement}
    (hunique : (env.providers.map StorageEndpoint.storageId).Nodup)
    (hlists : (env.latest.getD placement).replicas.length = (env.latest.getD placement).leaves.length)
    (hlimit : ∀ replicas ∈ (env.latest.getD placement).replicas, replicas.length ≤ target) :
    (∀ ok ordered, orderProviders env.providers env.draws = some (ok, ordered) →
      ordered.Perm env.providers ∧ Contiguous economicIdentity ordered) ∧
    (env.providers.length ≤ 2 ^ 63 → Acceptable env.draws → 2 * env.providers.length ≤ env.draws.length →
      ∃ result, orderProviders env.providers env.draws = some result) ∧
    ((∃ result, orderProviders env.providers env.draws = some result) → ∃ run, place target env placement = some run) ∧
    ∀ run, place target env placement = some run → run.Sound env target (env.latest.getD placement) := by
  refine ⟨fun ok ordered h => orderProviders_spec h, orderProviders_ends, ?_⟩
  have hreturn : ∀ outcome, (∃ run, some ({ outcome, placement := env.latest.getD placement, chunks :=
        (env.latest.getD placement).replicas.map .untouched } : PlaceRun) = some run) ∧
      ∀ run, some ({ outcome, placement := env.latest.getD placement, chunks :=
        (env.latest.getD placement).replicas.map .untouched } : PlaceRun) = some run →
        run.Sound env target (env.latest.getD placement) := by
    intro outcome
    refine ⟨⟨_, rfl⟩, fun run hrun => ?_⟩
    cases hrun
    exact PlaceRun.Sound.untouched hlimit outcome
  unfold place
  dsimp only
  split
  · exact ⟨fun _ => (hreturn _).1, (hreturn _).2⟩
  split
  · exact ⟨fun _ => (hreturn _).1, (hreturn _).2⟩
  cases horder : orderProviders env.providers env.draws with
  | none =>
    refine ⟨fun hsome => ?_, fun run hrun => ?_⟩
    · obtain ⟨result, hresult⟩ := hsome
      cases hresult
    · cases hrun
  | some result =>
    obtain ⟨ok, providers⟩ := result
    obtain ⟨hperm, -⟩ := orderProviders_spec horder
    cases ok with
    | false => exact ⟨fun _ => (hreturn _).1, (hreturn _).2⟩
    | true =>
      have hunique' : (providers.map StorageEndpoint.storageId).Nodup := (hperm.map _).nodup_iff.mpr hunique
      have hrows : ∀ row ∈ (env.latest.getD placement).leaves.zip (env.latest.getD placement).replicas,
          row.2.length ≤ target := fun row hrow => hlimit row.2 (List.of_mem_zip hrow).2
      obtain ⟨hexit, runs, hchunks, hlength, hruns⟩ := @PlaceEnv.placeChunks_spec _ env target
        (env.latest.getD placement).operationId providers hunique' 0 _ hrows
        { chunks := [], changed := false, contentMissing := false, admissionError := [] }
      dsimp only
      generalize env.placeChunks target (env.latest.getD placement).operationId providers 0
        ((env.latest.getD placement).leaves.zip (env.latest.getD placement).replicas)
        { chunks := [], changed := false, contentMissing := false, admissionError := [] } = result at hexit hchunks ⊢
      obtain ⟨exit, s⟩ := result
      dsimp only at hexit hchunks ⊢
      rw [List.nil_append] at hchunks
      have hsound : ∀ outcome, PlaceRun.Sound env target (env.latest.getD placement)
          { outcome
            placement := { env.latest.getD placement with replicas := s.chunks.map ChunkRun.replicas }
            chunks := s.chunks } := by
        intro outcome
        refine ⟨?_, rfl, fun i leaf before chunk hleaf hbefore hchunk => ?_⟩
        · rw [hchunks, hlength, List.length_zip, hlists, Nat.min_self]
        · dsimp only at hchunk
          rw [hchunks] at hchunk
          have hplaced := hruns i (leaf, before) chunk (List.getElem?_zip_eq_some.mpr ⟨hleaf, hbefore⟩) hchunk
          rw [Nat.zero_add] at hplaced
          exact hplaced.perm hunique' hperm.symm
      cases exit with
      | unfinished => exact absurd rfl hexit
      | thrown =>
        refine ⟨fun _ => ⟨_, rfl⟩, fun run hrun => ?_⟩
        cases hrun
        exact hsound _
      | saveFailed =>
        refine ⟨fun _ => ⟨_, rfl⟩, fun run hrun => ?_⟩
        cases hrun
        exact hsound _
      | finished =>
        refine ⟨fun _ => ⟨_, rfl⟩, fun run hrun => ?_⟩
        cases hrun
        exact hsound _

end

/-! ### A placement at providers with different addresses -/

def sampleReceipt (tag : UInt8) : Bytes := List.replicate STORAGE_PROOF_SIZE tag

def sampleProvider (tag : UInt8) (address : Bytes) : StorageEndpoint where
  storageId := ⟨2 :: List.replicate 31 tag, rfl⟩
  address
  port := 5
  payoutAccount := none

/-- The providers 1 and 3 are at one address, and provider 2 refuses. -/
def samplePlaceEnv : PlaceEnv where
  latest := none
  providers := [sampleProvider 1 [49], sampleProvider 2 [50], sampleProvider 3 [49], sampleProvider 4 [51]]
  draws := List.replicate 8 (some 0)
  fetched _ := some []
  diverse _ := true
  rounds _ _ :=
    { submitted := fun _ => true
      admission := fun provider =>
        { result := some
            { status := if provider.address = [50] then .capacityExceeded else .stored
              receipt := sampleReceipt (provider.storageId.1.getD 1 0) }
          recorded := true
          credited := true
          receiptSaved := true }
      placementSaved := true }
  sameMachine _ := false
  networkBinding := FixedBytes.leading 31 3

def unplaced : Placement where
  operationId := FixedBytes.leading 31 7
  leaves := [FixedBytes.leading 31 1]
  replicas := [[]]

/-- Provider 3 takes the place at its address, and provider 4 that of the one that refused. -/
theorem replicas_placed_sample : ∃ run, @place Crypto.sample 2 samplePlaceEnv unplaced = some run ∧
    run.placement.replicas = [[sampleProvider 3 [49], sampleProvider 4 [51]]] ∧
    @PlaceRun.Sound Crypto.sample samplePlaceEnv 2 unplaced run := by
  obtain ⟨-, hends, hplaces, hsound⟩ := @replicas_placed Crypto.sample 2 samplePlaceEnv unplaced (by decide) rfl (by decide)
  have hdraws : Acceptable samplePlaceEnv.draws := by
    intro draw hdraw
    obtain rfl : draw = 0 := Option.some.inj (List.eq_of_mem_replicate hdraw)
    decide
  obtain ⟨run, hrun⟩ := hplaces (hends (by decide) hdraws (by decide))
  refine ⟨run, hrun, ?_, hsound run hrun⟩
  have hreplicas : (@place Crypto.sample 2 samplePlaceEnv unplaced).map (fun run => run.placement.replicas) =
      some [[sampleProvider 3 [49], sampleProvider 4 [51]]] := by
    decide +kernel
  rw [hrun] at hreplicas
  exact Option.some.inj hreplicas

end Cybou

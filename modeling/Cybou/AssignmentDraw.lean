import Cybou.AcceptedCapacity
import Cybou.Library.SortedUnique

/-! # What the draw of an assignment can give (`storage_assignment_algorithm.cpp`)

Whatever the hashes, a shuffle only permutes, so the draw takes one provider from
each of `replicas` groups.  The groups are the payout accounts, and the providers
have pairwise different storage ids because equal ones would be neighbours in the
sorted list.  Sorting also makes the plan a function of the set of providers.

`ACTIVATE` repeats the draw for each chunk, and counts: every slot gets one unit a
chunk (`Tally`).
-/

namespace Cybou

open Library Proc

section

variable [Crypto]

/-! ### Shuffling -/

variable {α : Type}

omit [Crypto] in
theorem swapIfInBounds_perm (items : Array α) (i j : Nat) :
    (items.swapIfInBounds i j).toList.Perm items.toList := by
  rw [Array.swapIfInBounds_def]
  split
  · split
    · exact (Array.swap_perm ..).toList
    · exact .refl _
  · exact .refl _

variable {input : FixedBytes 32} {counter : UInt64}

variable {counter' : UInt64}

/-- **A shuffle permutes**, whatever is drawn. -/
theorem shuffleFrom_perm {size : Nat} {items items' : Array α}
    (h : shuffleFrom input size items counter = some (items', counter')) :
    items'.toList.Perm items.toList := by
  induction size generalizing items counter with
  | zero =>
    cases h
    exact .refl _
  | succ size ih =>
    rw [shuffleFrom] at h
    split at h
    · cases h
      exact .refl _
    · obtain ⟨⟨draw, next⟩, -, h⟩ := Option.bind_eq_some_iff.mp h
      exact (ih h).trans (swapIfInBounds_perm items _ _)

theorem shuffle_perm {items items' : List α}
    (h : shuffle items input counter = some (items', counter')) : items'.Perm items := by
  obtain ⟨⟨shuffled, next⟩, hfrom, h⟩ := Option.bind_eq_some_iff.mp h
  cases h
  exact shuffleFrom_perm hfrom

/-! ### Grouping -/

omit [Crypto] in
/-- Every group has members, all of them among `providers` and paid to its account. -/
def Grouped (providers : List StorageAssignmentProvider)
    (groups : OrdMap (FixedBytes 32) (List StorageAssignmentProvider)) : Prop :=
  ∀ account members, groups.find? account = some members →
    members ≠ [] ∧ ∀ p ∈ members, p ∈ providers ∧ p.payoutAccount = account

variable {eligible providers : List StorageAssignmentProvider}
  {groups : OrdMap (FixedBytes 32) (List StorageAssignmentProvider)}

omit [Crypto] in
theorem Grouped.push {p : StorageAssignmentProvider} (h : Grouped providers groups) (hp : p ∈ providers) :
    Grouped providers (groups.set p.payoutAccount ((groups.find? p.payoutAccount).getD [] ++ [p])) := by
  intro account members hmembers
  rw [OrdMap.find?_set] at hmembers
  split at hmembers
  · next heq =>
    cases hmembers
    subst heq
    refine ⟨by simp, ?_⟩
    intro q hq
    rcases List.mem_append.mp hq with hq | hq
    · cases hold : groups.find? p.payoutAccount with
      | none =>
        rw [hold] at hq
        cases hq
      | some old =>
        rw [hold] at hq
        exact (h _ old hold).2 q hq
    · obtain rfl := List.mem_singleton.mp hq
      exact ⟨hp, rfl⟩
  · exact h account members hmembers

variable {rest : List StorageAssignmentProvider}

omit [Crypto] in
/-- One turn puts a provider into the group of its account and keeps the others. -/
theorem groupProviders_spec {payer : FixedBytes 32} {prior : Option StorageAssignmentProvider}
    {groups' : OrdMap (FixedBytes 32) (List StorageAssignmentProvider)} (hgroups : Grouped providers groups)
    (hrest : ∀ p ∈ rest, p ∈ providers) (h : groupProviders payer prior rest groups = some groups') :
    Grouped providers groups' ∧
      (∀ p ∈ rest, isZero p.payoutAccount.1 = false ∧ p.payoutAccount ≠ payer) ∧
      (prior.toList ++ rest).IsChain fun a b => a.storageId ≠ b.storageId := by
  induction rest generalizing prior groups with
  | nil =>
    cases h
    refine ⟨hgroups, by simp, ?_⟩
    cases prior with
    | none => exact .nil
    | some q => exact .singleton q
  | cons p rest ih =>
    rw [List.forall_mem_cons] at hrest
    rw [groupProviders] at h
    split at h
    · cases h
    next hok =>
    push Not at hok
    obtain ⟨-, haccount, hpayer, hprior⟩ := hok
    obtain ⟨hgrouped, hknown, hchain⟩ := ih (hgroups.push hrest.1) hrest.2 h
    refine ⟨hgrouped, List.forall_mem_cons.mpr ⟨⟨Bool.eq_false_of_not_eq_true haccount, hpayer⟩, hknown⟩, ?_⟩
    cases prior with
    | none => exact hchain
    | some q =>
      refine List.IsChain.cons_cons ?_ hchain
      intro hsame
      exact hprior (by rw [Option.any_some, hsame, decide_eq_true rfl])

omit [Crypto] in
theorem storageAssignmentProvider_order_injective : Function.Injective StorageAssignmentProvider.order := by
  rintro ⟨storageId, account⟩ ⟨storageId', account'⟩ h
  obtain ⟨rfl, rfl⟩ := Prod.mk.injEq .. ▸ toLex_inj.mp h
  rfl

omit [Crypto] in
theorem storageIds_ascending (hsorted : providers.Pairwise fun a b => a.order < b.order)
    (hchain : providers.IsChain fun a b => a.storageId ≠ b.storageId) :
    providers.Pairwise fun a b => a.storageId < b.storageId := by
  let before : StorageAssignmentProvider → StorageAssignmentProvider → Prop := fun a b => a.storageId < b.storageId
  have : Trans before before before := ⟨fun h h' => lt_trans h h'⟩
  change providers.Pairwise before
  rw [← List.isChain_iff_pairwise]
  induction providers with
  | nil => exact .nil
  | cons a rest ih =>
    cases rest with
    | nil => exact .singleton a
    | cons b rest =>
      rw [List.isChain_cons_cons] at hchain ⊢
      rw [List.pairwise_cons] at hsorted
      refine ⟨?_, ih hsorted.2 hchain.2⟩
      rcases Prod.Lex.toLex_lt_toLex.mp (hsorted.1 b List.mem_cons_self) with hlt | ⟨heq, -⟩
      · exact hlt
      · exact absurd heq hchain.1

/-! ### Selection -/

theorem selectProviders_spec {selected : List StorageAssignmentProvider} {accounts : List (FixedBytes 32)}
    (hgroups : Grouped providers groups) (h : selectProviders input groups accounts counter = some selected) :
    selected.map (·.payoutAccount) = accounts ∧ ∀ p ∈ selected, p ∈ providers := by
  induction accounts generalizing counter selected with
  | nil =>
    cases h
    exact ⟨rfl, by simp⟩
  | cons account rest ih =>
    rw [selectProviders] at h
    obtain ⟨members, hmembers, h⟩ := Option.bind_eq_some_iff.mp h
    obtain ⟨⟨shuffled, next⟩, hshuffle, h⟩ := Option.bind_eq_some_iff.mp h
    obtain ⟨first, hfirst, h⟩ := Option.bind_eq_some_iff.mp h
    obtain ⟨tail, htail, h⟩ := Option.bind_eq_some_iff.mp h
    cases h
    obtain ⟨haccounts, hdrawn⟩ := ih htail
    have hmember : first ∈ members := (shuffle_perm hshuffle).mem_iff.mp (List.mem_of_head? hfirst)
    obtain ⟨hprovider, haccount⟩ := (hgroups account members hmembers).2 first hmember
    exact ⟨by rw [List.map_cons, haccount, haccounts], List.forall_mem_cons.mpr ⟨hprovider, hdrawn⟩⟩

structure PlanFacts (context : StorageAssignmentContext) (eligible : List StorageAssignmentProvider)
    (plan : StorageAssignmentPlan) : Prop where
  count : plan.selected.length = context.replicas.toNat
  drawn : ∀ p ∈ plan.selected, p ∈ eligible
  accounts : (plan.selected.map (·.payoutAccount)).Nodup
  storageIds : (plan.selected.map (·.storageId)).Nodup
  payer : ∀ p ∈ plan.selected, p.payoutAccount ≠ context.payer

variable {context : StorageAssignmentContext}

variable {plan : StorageAssignmentPlan}

/-- Everything that holds of a plan, from the three steps of the draw. -/
theorem planFacts (h : prepareStorageAssignment context eligible = .plan plan) :
    PlanFacts context eligible plan := by
  obtain ⟨hsorted, hmem⟩ := sortUnique_spec storageAssignmentProvider_order_injective eligible
  unfold prepareStorageAssignment at h
  split at h
  · cases h
  have hfold : (eligible.mergeSort fun a b => decide (a.order ≤ b.order)).eraseReps =
      sortUnique StorageAssignmentProvider.order eligible := rfl
  dsimp only at h
  rw [hfold] at h
  split at h
  · cases h
  next groups hgroups =>
  split at h
  · cases h
  next hsize =>
  split at h
  · cases h
  next accounts counter hshuffle =>
  split at h
  · cases h
  next selected hselected =>
  cases h
  obtain ⟨hgrouped, hchecked, hchain⟩ := groupProviders_spec (fun _ _ hfind => by cases hfind) (fun _ hp => hp) hgroups
  obtain ⟨haccounts, hdrawn⟩ := selectProviders_spec hgrouped hselected
  have hnodup : (selected.map (·.payoutAccount)).Nodup := by
    rw [haccounts]
    exact ((shuffle_perm hshuffle).nodup_iff.mpr (OrdMap.nodup_keys groups)).sublist (List.take_sublist _ _)
  refine ⟨?_, fun p hp => (hmem p).mp (hdrawn p hp), hnodup, ?_, fun p hp => (hchecked p (hdrawn p hp)).2⟩
  · have hlength := (shuffle_perm hshuffle).length_eq
    rw [List.length_map] at hlength
    rw [OrdMap.size] at hsize
    have hselected := congrArg List.length haccounts
    rw [List.length_map, List.length_take] at hselected
    change selected.length = _
    omega
  · have hids : ((sortUnique StorageAssignmentProvider.order eligible).map (·.storageId)).Nodup :=
      List.pairwise_map.mpr ((storageIds_ascending hsorted hchain).imp fun hlt => hlt.ne)
    refine List.pairwise_map.mpr ((List.pairwise_map.mp hnodup).imp_of_mem ?_)
    intro p q hp hq hne hsame
    exact hne (congrArg _ (List.inj_on_of_nodup_map hids (hdrawn p hp) (hdrawn q hq) hsame))

/-- **The plan is a function of the set of providers.** -/
theorem prepareStorageAssignment_congr
    {eligible' : List StorageAssignmentProvider} (hmem : ∀ p, p ∈ eligible ↔ p ∈ eligible')
    (hlimit : eligible.length ≤ MAX_STORAGE_ASSIGNMENT_CANDIDATES)
    (hlimit' : eligible'.length ≤ MAX_STORAGE_ASSIGNMENT_CANDIDATES) :
    prepareStorageAssignment context eligible = prepareStorageAssignment context eligible' := by
  have hempty : eligible = [] ↔ eligible' = [] := by
    simp only [List.eq_nil_iff_forall_not_mem, hmem]
  have hsorted : (eligible.mergeSort fun a b => decide (a.order ≤ b.order)).eraseReps =
      (eligible'.mergeSort fun a b => decide (a.order ≤ b.order)).eraseReps :=
    sortUnique_congr storageAssignmentProvider_order_injective hmem
  rw [prepareStorageAssignment, prepareStorageAssignment, hsorted]
  simp only [hempty, gt_iff_lt, Nat.not_lt.mpr hlimit, Nat.not_lt.mpr hlimit']

theorem length_le_of_plan (h : prepareStorageAssignment context eligible = .plan plan) :
    eligible.length ≤ MAX_STORAGE_ASSIGNMENT_CANDIDATES := by
  by_contra hover
  rw [prepareStorageAssignment, if_pos] at h
  · cases h
  · simp only [gt_iff_lt, Nat.not_le.mp hover, or_true]

/-! ### Counting -/

omit [Crypto] in
def slotCount (counts : OrdMap ServiceKey UInt32) (slot : Nat) : Nat :=
  counts.sum fun key units => if (ofLex key).1.toNat = slot then units.toNat else 0

omit [Crypto] in
theorem slotUnits_countedAllocations (counts : OrdMap ServiceKey UInt32) (slot : Nat) :
    slotUnits slot (countedAllocations counts) = slotCount counts slot := by
  rw [slotUnits, countedAllocations, slotCount, OrdMap.sum, sumIn]
  generalize counts.entries = entries
  induction entries with
  | nil => rfl
  | cons e rest ih =>
    rw [List.map_cons, List.map_cons, List.sum_cons, ← ih]
    by_cases hslot : (ofLex e.1).1.toNat = slot
    · rw [List.filter_cons_of_pos (by simpa using hslot), List.map_cons, List.sum_cons, if_pos hslot]
    · rw [List.filter_cons_of_neg (by simpa using hslot), if_neg hslot, Nat.zero_add]

omit [Crypto] in
/-- What counted allocations look like, where slot by slot `expected` units are in. -/
structure Tally (eligible : List StorageAssignmentProvider) (replicas : Nat) (expected : Nat → Nat)
    (counts : OrdMap ServiceKey UInt32) : Prop where
  slots : ∀ slot < replicas, slotCount counts slot = expected slot
  limit : ∀ key units, counts.find? key = some units → (ofLex key).1.toNat < replicas
  units : ∀ key units, counts.find? key = some units → units ≠ 0
  declared : ∀ key units, counts.find? key = some units →
    ∃ p ∈ eligible, p.storageId = (ofLex (ofLex key).2).1 ∧ p.payoutAccount = (ofLex (ofLex key).2).2

omit [Crypto] in
/-- **One unit more**: the slot of a key grows by one, and the others stay. -/
theorem slotCount_set {counts : OrdMap ServiceKey UInt32} {key : ServiceKey} {slot : Nat}
    (hroom : slotCount counts (ofLex key).1.toNat + 1 < 2 ^ 32) :
    (counts.find? key).getD 0 + 1 ≠ 0 ∧
      slotCount (counts.set key ((counts.find? key).getD 0 + 1)) slot =
        slotCount counts slot + if (ofLex key).1.toNat = slot then 1 else 0 := by
  cases hfind : counts.find? key with
  | none =>
    refine ⟨by decide, ?_⟩
    rw [slotCount, OrdMap.sum_set_of_none hfind]
    rfl
  | some units =>
    have hle := @OrdMap.le_sum_of_find? _ _ _ _ _ _
      (fun key' (units : UInt32) => if (ofLex key').1.toNat = (ofLex key).1.toNat then units.toNat else 0) hfind
    rw [if_pos rfl] at hle
    have hnext : (units + 1).toNat = units.toNat + 1 := by
      rw [UInt32.toNat_add, UInt32.toNat_one]
      exact Nat.mod_eq_of_lt (Nat.lt_of_le_of_lt (Nat.succ_le_succ hle) hroom)
    refine ⟨?_, ?_⟩
    · intro hzero
      rw [Option.getD_some] at hzero
      rw [hzero] at hnext
      cases hnext
    · have hset := @OrdMap.sum_set_of_some _ _ _ _ _ (units + 1) units
        (fun key' (units : UInt32) => if (ofLex key').1.toNat = slot then units.toNat else 0) hfind
      rw [Option.getD_some, slotCount, slotCount]
      split
      · next hslot =>
        rw [if_pos hslot, if_pos hslot, hnext] at hset
        omega
      · next hslot =>
        rw [if_neg hslot, if_neg hslot] at hset
        omega

variable {counts : OrdMap ServiceKey UInt32}

variable {n : Nat} {counts' : OrdMap ServiceKey UInt32}

omit [Crypto] in
/-- **One chunk**: every slot gets one unit. -/
theorem countSelected_tally {replicas : Nat} {slot : UInt8} (hreplicas : slot.toNat + rest.length = replicas)
    (hsmall : replicas < 2 ^ 8) (hroom : n + 1 < 2 ^ 32) (hrest : ∀ p ∈ rest, p ∈ eligible)
    (htally : Tally eligible replicas (fun s => if s < slot.toNat then n + 1 else n) counts)
    (h : countSelected slot rest counts = some counts') :
    Tally eligible replicas (fun _ => n + 1) counts' := by
  induction rest generalizing slot counts with
  | nil =>
    cases h
    refine ⟨?_, htally.limit, htally.units, htally.declared⟩
    intro s hs
    rw [List.length_nil, Nat.add_zero] at hreplicas
    rw [htally.slots s hs, if_pos (by omega)]
  | cons p rest ih =>
    rw [List.length_cons] at hreplicas
    rw [List.forall_mem_cons] at hrest
    rw [countSelected] at h
    split at h
    · cases h
    have hslot : slot.toNat < replicas := by omega
    have hnext : (slot + 1).toNat = slot.toNat + 1 := by
      rw [UInt8.toNat_add, UInt8.toNat_one]
      exact Nat.mod_eq_of_lt (by omega)
    have hcount : slotCount counts (ofLex (serviceKey slot p.storageId p.payoutAccount)).1.toNat + 1 < 2 ^ 32 := by
      change slotCount counts slot.toNat + 1 < 2 ^ 32
      rw [htally.slots slot.toNat hslot, if_neg (Nat.lt_irrefl _)]
      exact hroom
    have hstep := fun s => @slotCount_set counts (serviceKey slot p.storageId p.payoutAccount) s hcount
    refine ih (by omega) hrest.2 ⟨?_, ?_, ?_, ?_⟩ h
    · intro s hs
      rw [(hstep s).2, htally.slots s hs, hnext]
      change (_ + if slot.toNat = s then 1 else 0) = _
      split <;> split <;> split <;> omega
    all_goals
      intro key units hfind
      rw [OrdMap.find?_set] at hfind
      split at hfind
    · next heq =>
      rw [heq]
      exact hslot
    · exact htally.limit key units hfind
    · cases hfind
      exact (hstep 0).1
    · exact htally.units key units hfind
    · next heq =>
      rw [heq]
      exact ⟨p, hrest.1, rfl, rfl⟩
    · exact htally.declared key units hfind

/-- **The loop over the manifest**: every slot gets one unit a chunk. -/
theorem assignChunks_tally {chunks : List ChunkId}
    (hroom : n + chunks.length < 2 ^ 32) (htally : Tally eligible context.replicas.toNat (fun _ => n) counts)
    (h : assignChunks context eligible chunks counts = .ok (.ok counts')) :
    Tally eligible context.replicas.toNat (fun _ => n + chunks.length) counts' := by
  induction chunks generalizing n counts with
  | nil =>
    cases h
    exact htally
  | cons chunk rest ih =>
    rw [List.length_cons] at hroom
    rw [assignChunks] at h
    split at h
    · cases h
    · cases h
    next plan hplan =>
    split at h
    · cases h
    next next hcount =>
    have hfacts := planFacts hplan
    have hone : Tally eligible context.replicas.toNat (fun _ => n + 1) next := by
      refine countSelected_tally ?_ context.replicas.toNat_lt (by omega) hfacts.drawn ?_ hcount
      · rw [hfacts.count]
        exact Nat.zero_add _
      · exact htally
    rw [List.length_cons, show n + (rest.length + 1) = n + 1 + rest.length by omega]
    exact ih (by omega) hone h

omit [Crypto] in
theorem tally_empty (eligible : List StorageAssignmentProvider) (replicas : Nat) :
    Tally eligible replicas (fun _ => 0) ∅ where
  slots := fun _ _ => rfl
  limit := fun _ _ h => by cases h
  units := fun _ _ h => by cases h
  declared := fun _ _ h => by cases h

/-! ### Activation -/

omit [Crypto] in
/-- What holds of the allocations of an activation: they are strictly ordered, every
    slot has the units of the lease, and all providers were declared. -/
structure AllocationFacts (lease : StorageLeaseRecord) (declaration : StorageAssignmentDeclaration)
    (allocations : List StorageAssignedUnits) : Prop where
  ordered : allocations.Pairwise fun a b => a.key < b.key
  slots : ∀ slot < lease.replicas.toNat, slotUnits slot allocations = lease.units.toNat
  limit : ∀ u ∈ allocations, u.slot < lease.replicas
  units : ∀ u ∈ allocations, u.units ≠ 0
  declared : ∀ u ∈ allocations, ∃ e ∈ declaration.eligible,
    e.storageId = u.storageId ∧ e.payoutAccount = u.payoutAccount

omit [Crypto] in
theorem Tally.allocationFacts {lease : StorageLeaseRecord} {declaration : StorageAssignmentDeclaration}
    (h : Tally (declaration.eligible.map fun e => { storageId := e.storageId, payoutAccount := e.payoutAccount })
      lease.replicas.toNat (fun _ => lease.units.toNat) counts) :
    AllocationFacts lease declaration (countedAllocations counts) := by
  have hmem : ∀ u ∈ countedAllocations counts, counts.find? u.key = some u.units := by
    intro u hu
    obtain ⟨e, he, rfl⟩ := List.mem_map.mp hu
    exact OrdMap.mem_entries_iff.mp he
  refine ⟨?_, ?_, ?_, ?_, ?_⟩
  · exact List.pairwise_map.mpr (counts.ascending.imp fun hlt => hlt)
  · intro slot hslot
    rw [slotUnits_countedAllocations, h.slots slot hslot]
  · intro u hu
    exact UInt8.lt_iff_toNat_lt.mpr (h.limit _ _ (hmem u hu))
  · intro u hu
    exact h.units _ _ (hmem u hu)
  · intro u hu
    obtain ⟨p, hp, hstorage, haccount⟩ := h.declared _ _ (hmem u hu)
    obtain ⟨e, he, rfl⟩ := List.mem_map.mp hp
    exact ⟨e, he, hstorage, haccount⟩

abbrev declaredProviders (declaration : StorageAssignmentDeclaration) : List StorageAssignmentProvider :=
  declaration.eligible.map fun e => { storageId := e.storageId, payoutAccount := e.payoutAccount }

theorem activateTerm_allocations (op : StorageSettlement) (network : Hash256) (height : UInt64)
    (parent : Hash256) (operationId : Option Hash256) (publication : PublicationRecord) (target : LocatedTerm)
    (declaration : StorageAssignmentDeclaration) :
    Assigned (fun term' => ∃ counts, assignChunks (assignmentContext network parent target declaration)
        (declaredProviders declaration) op.manifest ∅ = .ok (.ok counts) ∧
      AllocationFacts target.lease declaration (countedAllocations counts) ∧
      ∀ id ∈ operationId, term'.assignments = target.term.assignments ++
        [{ operationId := id, preparationId := op.preparationId, seed := parent, epoch := declaration.epoch
           effectivePeriod := op.period, allocations := countedAllocations counts }])
      (activateTerm op network height parent operationId publication target declaration) := by
  unfold activateTerm
  dsimp only
  split
  · exact nofun
  split
  · exact nofun
  split
  · exact nofun
  next hunits =>
  push Not at hunits
  split
  · exact nofun
  have hspec := assignChunks_spec (assignmentContext network parent target declaration)
    (declaredProviders declaration) op.manifest ∅
  cases hcounts : assignChunks (assignmentContext network parent target declaration)
    (declaredProviders declaration) op.manifest ∅ with
  | error fault =>
    rw [hcounts] at hspec
    exact hspec
  | ok result =>
    rw [hcounts] at hspec
    cases result with
    | error e => exact hspec
    | ok counts =>
      have hbound := target.lease.units.toNat_lt
      have htally := assignChunks_tally (by omega) (tally_empty (declaredProviders declaration) _) hcounts
      rw [Nat.zero_add, hunits.1] at htally
      have hfacts := Tally.allocationFacts htally
      cases operationId with
      | none => exact ⟨counts, rfl, hfacts, nofun⟩
      | some operationId =>
        simp only [bind, Except.bind]
        split
        · exact nofun
        · refine ⟨counts, rfl, hfacts, ?_⟩
          intro id hid
          cases hid
          rfl

/-- What an activation that passed has found: the term of the declaration, and counts
    for its manifest that an applied activation records with the term. -/
def Activated (op : StorageSettlement) (network parent : Hash256) (apply : Bool) (s s' : CybouState) : Prop :=
  ∃ target declaration counts, assignmentTargets op s = [(target, some declaration)] ∧
    assignChunks (assignmentContext network parent target declaration) (declaredProviders declaration) op.manifest ∅ =
      .ok (.ok counts) ∧
    AllocationFacts target.lease declaration (countedAllocations counts) ∧
    (apply = true → ∃ operationId lease' term', s'.leases.find? target.publication = some lease' ∧
      lease'.fundedTerms[target.index]? = some term' ∧ term'.assignments = target.term.assignments ++
        [{ operationId, preparationId := op.preparationId, seed := parent, epoch := declaration.epoch
           effectivePeriod := op.period, allocations := countedAllocations counts }])

/-- An `ACTIVATE` that passes records the draw for the one declaration found. -/
theorem applyAssignmentInputs_activated {op : StorageSettlement} (network : Hash256) (height : UInt64)
    (parent : Hash256) (apply : Bool) (s : CybouState) (haction : op.action = .activate) :
    wp (applyAssignmentInputs op network height parent apply)
      (fun r s' => r = .none → Activated op network parent apply s s') (fun _ _ => True) s := by
  refine wp_applyAssignmentInputs (fun r hr _ hnone => absurd hnone hr)
    fun target declaration publication hfront hsome => ?_
  have htargets := hfront.targets
  have hmem := mem_assignmentTargets (htargets ▸ List.mem_singleton_self _)
  obtain ⟨hlocated, ⟨hprepare, -⟩ | ⟨-, d, hd, rfl, -⟩⟩ := hmem
  · cases hprepare.symm.trans haction
  obtain ⟨hlease, hterm⟩ := located hlocated
  have hspec := activateTerm_allocations op network height parent (recordedId op apply) publication target d
  rw [assignedTerm]
  generalize activateTerm op network height parent (recordedId op apply) publication target d = result at hspec ⊢
  rcases result with fault | e | term'
  · trivial
  · exact fun hnone => absurd hnone hspec
  · obtain ⟨counts, hcounts, hfacts, hrecorded⟩ := hspec
    refine fun _ => ⟨target, d, counts, htargets, hcounts, hfacts, ?_⟩
    rintro rfl
    obtain ⟨operationId, hoperationId⟩ := Option.ne_none_iff_exists'.mp (hsome rfl)
    refine ⟨operationId, target.lease.setTerm target.index term', term', ?_, ?_, hrecorded operationId hoperationId⟩
    · rw [if_pos rfl]
      unfold CybouState.recordTerm
      split <;> exact OrdMap.find?_set_self ..
    · obtain ⟨hlt, -⟩ := List.getElem?_eq_some_iff.mp hterm
      exact List.getElem?_set_self hlt

/-- **The draw and what is recorded of it**: a plan selects exactly `replicas` of the
    eligible providers, with different accounts and storage ids and never the payer, and
    depends on nothing but which providers are eligible; and an activation that passes has
    strictly ordered allocations of declared providers that give each slot the units of the
    lease. -/
theorem storage_assignment :
    (∀ context eligible plan, prepareStorageAssignment context eligible = .plan plan →
      PlanFacts context eligible plan ∧
      ∀ eligible' : List StorageAssignmentProvider, (∀ p, p ∈ eligible' ↔ p ∈ eligible) →
        eligible'.length ≤ MAX_STORAGE_ASSIGNMENT_CANDIDATES →
        prepareStorageAssignment context eligible' = .plan plan) ∧
    ∀ (op : StorageSettlement) (network : Hash256) (height : UInt64) (parent : Hash256) (apply : Bool)
      (s s' : CybouState), op.action = .activate →
      applyAssignmentInputs op network height parent apply s = .ok .none s' →
      Activated op network parent apply s s' := by
  refine ⟨?_, ?_⟩
  · intro context eligible plan hplan
    refine ⟨planFacts hplan, ?_⟩
    intro eligible' hmem hlimit
    rw [prepareStorageAssignment_congr hmem hlimit (length_le_of_plan hplan)]
    exact hplan
  · intro op network height parent apply s s' haction hrun
    exact wp_of_ok (applyAssignmentInputs_activated network height parent apply s haction) hrun rfl

end

section Sample

attribute [local instance] Crypto.sample

def declaredManifest : List ChunkId := [sampleId 31, sampleId 32]

/-- `sampleTerm` with a declaration of height 5: account 2 can serve. -/
def declaredTerm : StorageFundedTerm :=
  { sampleTerm with
    nextAssignmentEpoch := 2
    declarations :=
      [{ operationId := sampleId 20, epoch := 1, height := 5
         eligible :=
          [{ storageId := sampleStorageId, payoutAccount := sampleId 2, keyEpoch := 0, acceptedHeight := 5 }] }] }

def declaredState : CybouState :=
  { sampleState with
    publications := (∅ : OrdMap _ _).set (sampleId 6)
      { owner := sampleId 1
        chunkAuthorizationRoot := (chunkAuthorizationRoot declaredManifest).getD Hash256.ZERO
        chunkCount := 2, height := 4 }
    leases := (∅ : OrdMap _ _).set (sampleId 6) { sampleLease with fundedTerms := [declaredTerm] } }

def sampleActivation : StorageSettlement :=
  { period := 0, periodStartUtc := 86400, action := .activate, preparationId := sampleId 20
    manifest := declaredManifest
    poaSignature := { ed25519 := FixedBytes.zero 64, mlDsa := List.replicate 3309 0 } }

def drawContext : StorageAssignmentContext :=
  { networkBinding := sampleId 40, publication := sampleId 6, chunk := sampleId 31, finalizedSeed := sampleId 41
    payer := sampleId 1, epoch := 1, termStart := 0, termEnd := 1, replicas := 2 }

def sampleProviders : List StorageAssignmentProvider :=
  [{ storageId := sampleId 50, payoutAccount := sampleId 2 }, { storageId := sampleId 51, payoutAccount := sampleId 3 },
    { storageId := sampleId 52, payoutAccount := sampleId 3 }]

set_option maxRecDepth 100000 in
theorem storage_assignment_sampleActivation :
    (∃ plan, prepareStorageAssignment drawContext sampleProviders = .plan plan ∧
      PlanFacts drawContext sampleProviders plan ∧
      prepareStorageAssignment drawContext (sampleProviders ++ sampleProviders.reverse) = .plan plan) ∧
    ∃ s', applyAssignmentInputs sampleActivation (sampleId 40) 7 (sampleId 41) true declaredState = .ok .none s' ∧
      Activated sampleActivation (sampleId 40) (sampleId 41) true declaredState s' := by
  refine ⟨?_, ?_⟩
  · have hsorted : (sampleProviders.mergeSort fun a b => decide (a.order ≤ b.order)) = sampleProviders :=
      List.mergeSort_of_pairwise (by decide)
    have hdrawn : (match prepareStorageAssignment drawContext sampleProviders with
        | .plan _ => true
        | _ => false) = true := by
      rw [prepareStorageAssignment, if_neg (by decide), hsorted]
      decide
    split at hdrawn
    · next plan hplan =>
      obtain ⟨hfacts, hsame⟩ := storage_assignment.1 _ _ _ hplan
      exact ⟨plan, hplan, hfacts, hsame _ (by simp) (by decide)⟩
    · cases hdrawn
  · have hrun : (match applyAssignmentInputs sampleActivation (sampleId 40) 7 (sampleId 41) true declaredState with
      | .ok .none _ => true
      | _ => false) = true := by decide +kernel
    split at hrun
    · next s' heq => exact ⟨s', heq, storage_assignment.2 _ _ _ _ _ _ _ rfl heq⟩
    · cases hrun

end Sample

end Cybou

import Cybou.CoordinatorSpecs
import Cybou.Supply

/-! # The identity operation journal over whole runs

A run is any sequence of calls of the coordinator with any answers of its
surroundings, of restarts, of blocks, and of submissions of other operations.
The journal is one slot and every submission is of its exact bytes, in every run.

That a journaled operation which may have left the node is never replaced holds
in the runs in which no later submission of it is refused by the node itself
(`journal_runs`).  Such a refusal clears the journal although copies may still be
circulating (`journal_replaced`).
-/

namespace Cybou

open Library Library.History

section

variable [Crypto]

namespace IdentityCoordinator

variable {config : CoordinatorConfig} {w w' : IdentityCoordinator} {e : JournalEntry}

/-! ### What holds of every event -/

def Exact : CoordinatorEvent → List CoordinatorEvent → Prop
  | .submitted e file operation _, earlier => .signed e ∈ earlier ∧ file = some (encodeJournal e) ∧
      serializeProtocolOperation operation = some e.operationBytes ∧
      e.operationBytes.length ≤ MAX_JOURNALED_OPERATION_BYTES
  | _, _ => True

/-- The node itself does not refuse an operation that has left it and is unresolved. -/
def Unrefused : CoordinatorEvent → List CoordinatorEvent → Prop
  | .submitted e _ _ view, earlier => view.refuses = true → Left earlier e → Resolved earlier e
  | _, _ => True

/-- No operation is signed for the nonce of another one that has left the node and is
    unresolved. -/
def NoReplacement : CoordinatorEvent → List CoordinatorEvent → Prop
  | .signed e', earlier => ∀ e, Left earlier e → e.accountId = e'.accountId → e.nonce = e'.nonce →
      e.opId ≠ e'.opId → Resolved earlier e
  | _, _ => True

section

variable {P : CoordinatorEvent → List CoordinatorEvent → Prop} {events history : List CoordinatorEvent}

theorem always_observations (hP : ∀ event earlier, Observation event → P event earlier)
    (hevents : ∀ event ∈ events, Observation event) (h : Always P history) : Always P (events ++ history) := by
  induction events with
  | nil => exact h
  | cons event events ih =>
    rw [List.forall_mem_cons] at hevents
    exact ⟨hP event _ hevents.1, ih hevents.2⟩

theorem observation_finalized (opId : Hash256) : ∀ event ∈ [CoordinatorEvent.finalized opId], Observation event := by
  intro event hevent
  rw [List.mem_singleton.mp hevent]
  trivial

theorem observation_advanced (accountId : AccountId) (nonce : UInt64) :
    ∀ event ∈ [CoordinatorEvent.advanced accountId nonce], Observation event := by
  intro event hevent
  rw [List.mem_singleton.mp hevent]
  trivial

theorem exact_of_observation (event : CoordinatorEvent) (earlier : List CoordinatorEvent)
    (h : Observation event) : Exact event earlier := by
  cases event with
  | finalized _ | advanced _ _ => trivial
  | signed _ | submitted _ _ _ _ => exact h.elim

theorem noReplacement_of_observation (event : CoordinatorEvent) (earlier : List CoordinatorEvent)
    (h : Observation event) : NoReplacement event earlier := by
  cases event with
  | finalized _ | advanced _ _ => trivial
  | signed _ | submitted _ _ _ _ => exact h.elim

theorem signed_of_observations (hevents : ∀ event ∈ events, Observation event)
    (h : .signed e ∈ events ++ history) : .signed e ∈ history := by
  rcases List.mem_append.mp h with hmem | hmem
  · exact (hevents _ hmem).elim
  · exact hmem

theorem Left.exact (h : Left history e) (hexact : Always Exact history) :
    .signed e.core ∈ history ∧ e.operationBytes.length ≤ MAX_JOURNALED_OPERATION_BYTES := by
  obtain ⟨file, operation, view, hmem, -⟩ := h
  obtain ⟨later, earlier, rfl⟩ := List.append_of_mem hmem
  obtain ⟨hsigned, -, -, hsize⟩ := always_iff.mp hexact _ _ _ rfl
  exact ⟨List.mem_append_right _ (List.mem_cons_of_mem _ hsigned), hsize⟩

end

/-! ### The invariant of every run -/

structure Sound (config : CoordinatorConfig) (w : IdentityCoordinator) : Prop where
  fresh : w.loaded = false → w.loadError = none ∧ w.entry = none
  file : ∀ bytes, w.file = some bytes → config.hasJournalPath = true ∧
    ∃ e, bytes = encodeJournal e ∧ e.operationBytes.length ≤ MAX_JOURNALED_OPERATION_BYTES ∧
      .signed e.core ∈ w.history
  /-- What is in memory is what the file holds. -/
  entry : ∀ e, w.entry = some e → w.file = some (encodeJournal e) ∧
    e.operationBytes.length ≤ MAX_JOURNALED_OPERATION_BYTES ∧ .signed e.core ∈ w.history
  signed : ∀ e, .signed e ∈ w.history → RotationSigned e
  exact : Always Exact w.history
  finalized : ∀ opId status, (opId, status) ∈ w.statuses → status.kind = .finalized →
    .finalized opId ∈ w.history

variable {e' : JournalEntry}

theorem encodeJournal_of_core (h : e'.core = e.core) :
    encodeJournal e' = encodeJournal e := by
  have hencode := congrArg encodeJournal h
  exact hencode

theorem Sound.of_entry (hs : w.Sound config) (h : w.entry.map JournalEntry.core = some e.core) :
    w.file = some (encodeJournal e) ∧ e.operationBytes.length ≤ MAX_JOURNALED_OPERATION_BYTES ∧
      .signed e.core ∈ w.history := by
  obtain ⟨e', he', hcore⟩ := Option.map_eq_some_iff.mp h
  obtain ⟨hfile, hsize, hsigned⟩ := hs.entry e' he'
  rw [encodeJournal_of_core hcore] at hfile
  rw [hcore] at hsigned
  have hbytes := congrArg JournalEntry.operationBytes hcore
  simp only [JournalEntry.core_operationBytes] at hbytes
  rw [hbytes] at hsize
  exact ⟨hfile, hsize, hsigned⟩

theorem le_of_canSave (h : canSave config e = true) :
    config.hasJournalPath = true ∧ e.operationBytes.length ≤ MAX_JOURNALED_OPERATION_BYTES := by
  simp only [canSave, Bool.and_eq_true, decide_eq_true_eq] at h
  exact ⟨h.1.1, h.2⟩

variable {view : SubmissionView} {statuses : RecentStatuses}

omit [Crypto] in
/-- Where a remembered status comes from. -/
theorem status_of_submitOperation {opId id : Hash256} {status : OperationStatus} (hopId : opId.isNull = false)
    (h : (id, status) ∈ (submitOperation view opId statuses).2) :
    (id, status) ∈ statuses ∧ (id = opId → view.refuses = true) ∨
      id = opId ∧ (status.kind = .finalized → view.findsFinalized = true) ∧
        (status.kind = .rejectedKnown → view.refuses = true) := by
  have hcases := submitOperation_cases view opId statuses
  generalize (submitOperation view opId statuses).1 = result at hcases
  generalize (submitOperation view opId statuses).2 = statuses' at hcases h
  have hnew : ∀ new : OperationStatus, statuses' = rememberOperationStatus statuses opId new →
      (id, status) ∈ statuses ∧ (id = opId → view.refuses = true) ∨ id = opId ∧ status = new := by
    intro new hstatuses
    rw [hstatuses] at h
    rcases mem_rememberOperationStatus h with heq | ⟨hnull, hold⟩
    · exact .inr (Prod.mk.inj heq)
    · refine .inl ⟨hold, fun hid => ?_⟩
      rw [hnull hid] at hopId
      cases hopId
  cases hcases with
  | refused hrefuses hok hcertain hstatuses =>
    rcases hstatuses with hsame | hstatuses
    · rw [hsame] at h
      exact .inl ⟨h, fun _ => hrefuses⟩
    · refine (hnew _ hstatuses).imp_right ?_
      intro ⟨hid, hstatus⟩
      subst hstatus
      exact ⟨hid, fun hkind => OperationStatusKind.noConfusion hkind, fun _ => hrefuses⟩
  | finalized hfinds height hstatus hcertain =>
    refine (hnew _ rfl).imp_right ?_
    intro ⟨hid, hstatus⟩
    subst hstatus
    exact ⟨hid, fun _ => hfinds, fun hkind => OperationStatusKind.noConfusion hkind⟩
  | held _ _ _ _ | taken _ _ | uncertain _ _ _ =>
    refine (hnew _ rfl).imp_right ?_
    intro ⟨hid, hstatus⟩
    subst hstatus
    exact ⟨hid, fun hkind => OperationStatusKind.noConfusion hkind,
      fun hkind => OperationStatusKind.noConfusion hkind⟩

theorem opId_ne_null (e : JournalEntry) : e.opId.isNull = false := by
  obtain ⟨operation, -, hid⟩ := e.canonical
  exact computeOperationId_ne_null hid

variable {events : List CoordinatorEvent}

theorem Sound.learns (hs : w.Sound config) (hevents : ∀ event ∈ events, Observation event)
    (hfinalized : ∀ opId status, (opId, status) ∈ statuses → status.kind = .finalized →
      .finalized opId ∈ events ++ w.history) :
    Sound config { w with statuses, history := events ++ w.history } := by
  refine { hs with file := ?_, entry := ?_, signed := ?_, exact := ?_, finalized := hfinalized }
  · intro bytes hbytes
    obtain ⟨hpath, e, heq, hsize, hsigned⟩ := hs.file bytes hbytes
    exact ⟨hpath, e, heq, hsize, List.mem_append_right _ hsigned⟩
  · intro e he
    obtain ⟨hfile, hsize, hsigned⟩ := hs.entry e he
    exact ⟨hfile, hsize, List.mem_append_right _ hsigned⟩
  · intro e hsigned
    exact hs.signed e (signed_of_observations hevents hsigned)
  · exact always_observations exact_of_observation hevents hs.exact

/-- One action keeps the invariant. -/
theorem Sound.action (hs : w.Sound config) (h : Action config w w') : w'.Sound config := by
  cases h with
  | tunes entry nextRelayRetry hentry =>
    refine { hs with fresh := ?_, entry := ?_ }
    · intro hloaded
      obtain ⟨herror, hnone⟩ := hs.fresh hloaded
      rw [hnone] at hentry
      exact ⟨herror, Option.map_eq_none_iff.mp hentry⟩
    · intro e he
      dsimp only at he
      rw [he, Option.map_some] at hentry
      exact hs.of_entry hentry.symm
  | observes events hevents =>
    refine hs.learns hevents ?_
    intro opId status hmem hkind
    exact List.mem_append_right _ (hs.finalized opId status hmem hkind)
  | loadsNothing hfresh hnone =>
    exact { hs with fresh := fun h => Bool.noConfusion h }
  | loadFails hfresh text =>
    exact { hs with fresh := fun h => Bool.noConfusion h }
  | @loads hfresh bytes hfile entry hparse =>
    obtain ⟨hpath, source, heq, hsize, hsigned⟩ := hs.file bytes hfile
    rw [heq] at hparse hfile
    have hentry := parse_encodeJournal hsize hparse
    subst hentry
    refine { hs with fresh := fun h => Bool.noConfusion h, entry := ?_ }
    intro e he
    cases he
    exact ⟨hfile, hsize, hsigned⟩
  | @rewrites e hheld hsave =>
    have hfile := (hs.of_entry hheld.entry).1
    rw [← hfile]
    exact hs
  | @signs e hidle hrotation =>
    refine { hs with file := ?_, entry := ?_, signed := ?_, exact := ⟨trivial, hs.exact⟩, finalized := ?_ }
    · intro bytes hbytes
      obtain ⟨hpath, e, heq, hsize, hsigned⟩ := hs.file bytes hbytes
      exact ⟨hpath, e, heq, hsize, List.mem_cons_of_mem _ hsigned⟩
    · intro e' he'
      rw [hidle.2] at he'
      cases he'
    · intro e' hsigned
      rcases List.mem_cons.mp hsigned with heq | hold
      · cases heq
        exact hrotation
      · exact hs.signed e' hold
    · intro opId status hmem hkind
      exact List.mem_cons_of_mem _ (hs.finalized opId status hmem hkind)
  | @journals e hidle hsigned hsave =>
    obtain ⟨hpath, hsize⟩ := le_of_canSave hsave
    refine { hs with file := ?_, entry := ?_ }
    · intro bytes hbytes
      cases hbytes
      exact ⟨hpath, e, rfl, hsize, hsigned⟩
    · intro e' he'
      rw [hidle.2] at he'
      cases he'
  | @adopts e hidle hsigned hsave hfile =>
    refine { hs with fresh := ?_, entry := ?_ }
    · intro hloaded
      rw [hidle.1.1] at hloaded
      cases hloaded
    · intro e' he'
      cases he'
      exact ⟨hfile, (le_of_canSave hsave).2, hsigned⟩
  | @submits e hheld operation hoperation view =>
    obtain ⟨hfile, hsize, hsigned⟩ := hs.of_entry hheld.entry
    have hexact : Always Exact (.submitted e.core w.file operation view :: w.history) :=
      ⟨⟨hsigned, hfile, (e.of_deserialize hoperation).1, hsize⟩, hs.exact⟩
    refine { hs with file := ?_, entry := ?_, signed := ?_, exact := ?_, finalized := ?_ }
    · intro bytes hbytes
      obtain ⟨hpath, e, heq, hsize, hsigned⟩ := hs.file bytes hbytes
      exact ⟨hpath, e, heq, hsize, List.mem_append_right _ (List.mem_cons_of_mem _ hsigned)⟩
    · intro e' he'
      obtain ⟨hfile, hsize, hsigned⟩ := hs.entry e' he'
      exact ⟨hfile, hsize, List.mem_append_right _ (List.mem_cons_of_mem _ hsigned)⟩
    · intro e' hsigned
      have hmem := signed_of_observations observation_finalizedEvents hsigned
      rcases List.mem_cons.mp hmem with heq | hold
      · cases heq
      · exact hs.signed e' hold
    · exact always_observations exact_of_observation observation_finalizedEvents hexact
    · intro opId status hmem hkind
      rcases status_of_submitOperation (opId_ne_null e) hmem with ⟨hold, -⟩ | ⟨hid, hfinds, -⟩
      · exact List.mem_append_right _ (List.mem_cons_of_mem _ (hs.finalized opId status hold hkind))
      · rw [hid, hfinds hkind]
        exact List.mem_cons_self
  | @clears e hheld hclear =>
    refine { hs with fresh := ?_, file := ?_, entry := ?_ }
    · intro hloaded
      exact ⟨(hs.fresh hloaded).1, rfl⟩
    · intro bytes hbytes
      by_cases hpath : config.hasJournalPath = true
      · rw [if_pos hpath] at hbytes
        cases hbytes
      · rw [if_neg hpath] at hbytes
        exact absurd (hs.file bytes hbytes).1 hpath
    · intro e' he'
      cases he'

/-! ### What an unrefused operation keeps -/

/-- The operation has left the node and is unresolved. -/
def Unresolved (history : List CoordinatorEvent) (e : JournalEntry) : Prop :=
  Left history e ∧ ¬Resolved history e

/-- The operation is still the one in the journal, and nothing says that it was refused. -/
structure Retained (w : IdentityCoordinator) (e : JournalEntry) : Prop where
  file : w.file = some (encodeJournal e)
  entry : w.Ready → w.entry.map JournalEntry.core = some e.core
  status : ∀ status, (e.opId, status) ∈ w.statuses → status.kind ≠ .rejectedKnown

structure Kept (w : IdentityCoordinator) : Prop where
  retained : ∀ e, Unresolved w.history e → w.Retained e
  noReplacement : Always NoReplacement w.history

theorem Unresolved.of_cons {event : CoordinatorEvent} {history : List CoordinatorEvent}
    (h : Unresolved (event :: history) e) (hleft : Left history e) : Unresolved history e :=
  ⟨hleft, fun hresolved => h.2 (hresolved.mono (List.subset_cons_self event history))⟩

theorem Unresolved.of_observations {history : List CoordinatorEvent}
    (hevents : ∀ event ∈ events, Observation event) (h : Unresolved (events ++ history) e) :
    Unresolved history e :=
  ⟨h.1.of_observations hevents, fun hresolved => h.2 (hresolved.mono (List.subset_append_right _ _))⟩

theorem Kept.resolved_of_idle (hk : w.Kept) (hidle : w.Idle) (hleft : Left w.history e) :
    Resolved w.history e := by
  by_contra hunresolved
  have hentry := (hk.retained e ⟨hleft, hunresolved⟩).entry hidle.1
  rw [hidle.2] at hentry
  cases hentry

theorem Kept.core_eq (hk : w.Kept) (hheld : w.Held e) (h : Unresolved w.history e') : e'.core = e.core := by
  have hentry := (hk.retained e' h).entry hheld.ready
  rw [hheld.entry] at hentry
  exact (Option.some.inj hentry).symm

theorem unresolved_of_core {history : List CoordinatorEvent} (hcore : e'.core = e.core)
    (h : Unresolved history e') : Unresolved history e.core := by
  have hunresolved : Unresolved history e'.core := h
  rw [hcore] at hunresolved
  exact hunresolved

/-- Only resolved operations are cleared from the journal. -/
theorem Kept.resolved_of_clearable (hk : w.Kept) (hs : w.Sound config) (hunrefused : Always Unrefused w.history)
    (hheld : w.Held e) (hclear : w.Clearable e) : ¬Unresolved w.history e' := by
  intro h
  have hcore := hk.core_eq hheld h
  have hunresolved : Unresolved w.history e.core := unresolved_of_core hcore h
  have hretained := hk.retained e.core hunresolved
  apply hunresolved.2
  cases hclear with
  | finalized hmem => exact .inl hmem
  | remembered status hmem hkind =>
    rcases hkind with hfinal | hrejected
    · exact .inl (hs.finalized e.opId status hmem hfinal)
    · exact absurd hrejected (hretained.status status hmem)
  | refused file operation view earlier hhistory hrefuses =>
    rw [hhistory] at hunrefused hunresolved ⊢
    -- the refused submission was not the one by which the operation left
    obtain ⟨file', operation', view', hmem, hoffers⟩ := hunresolved.1
    rcases List.mem_cons.mp hmem with heq | hmem
    · cases heq
      rw [SubmissionView.offers_of_refuses hrefuses] at hoffers
      cases hoffers
    · have hresolved := hunrefused.1 hrefuses ⟨file', operation', view', hmem, hoffers⟩
      exact hresolved.mono (List.subset_cons_self _ _)
  | rotated rotate hkind hrotate hadvanced =>
    obtain ⟨-, -, hsigned⟩ := hs.of_entry hheld.entry
    obtain ⟨hnonce, hmax⟩ := hs.signed e.core hsigned hkind rotate hrotate
    refine .inr ⟨_, hadvanced, ?_⟩
    rw [hnonce]
    exact lt_add_one_of_ne_max hmax

theorem Kept.retained_submits (hk : w.Kept) (hs : w.Sound config) (hheld : w.Held e)
    {operation : ProtocolOperation} (hunrefused : Unrefused (.submitted e.core w.file operation view) w.history)
    (h : Unresolved (finalizedEvents view.findsFinalized e.opId ++
      .submitted e.core w.file operation view :: w.history) e') :
    Retained { w with
      statuses := (submitOperation view e.opId w.statuses).2
      history := finalizedEvents view.findsFinalized e.opId ++
        .submitted e.core w.file operation view :: w.history } e' := by
  have hsubmitted := h.of_observations observation_finalizedEvents
  -- it left just now, or it was unresolved before
  have hwhen : (e'.core = e.core ∧ view.offers = true) ∨ Unresolved w.history e' := by
    obtain ⟨file, operation', view', hmem, hoffers⟩ := hsubmitted.1
    rcases List.mem_cons.mp hmem with heq | hmem
    · obtain ⟨hcore, -, -, hview⟩ := CoordinatorEvent.submitted.inj heq
      rw [hview] at hoffers
      exact .inl ⟨hcore, hoffers⟩
    · exact .inr (hsubmitted.of_cons ⟨file, operation', view', hmem, hoffers⟩)
  have hcore : e'.core = e.core := hwhen.elim And.left (hk.core_eq hheld)
  have hid := congrArg JournalEntry.opId hcore
  rw [JournalEntry.core_opId, JournalEntry.core_opId] at hid
  have haccepted : view.refuses = false := by
    rw [← Bool.not_eq_true]
    intro hrefuses
    rcases hwhen with ⟨-, hoffers⟩ | hbefore
    · rw [SubmissionView.offers_of_refuses hrefuses] at hoffers
      cases hoffers
    · have hbefore := unresolved_of_core hcore hbefore
      exact hbefore.2 (hunrefused hrefuses hbefore.1)
  refine ⟨?_, fun _ => ?_, ?_⟩
  · rw [encodeJournal_of_core hcore]
    exact (hs.of_entry hheld.entry).1
  · rw [hcore]
    exact hheld.entry
  · intro status hmem hkind
    rcases status_of_submitOperation (opId_ne_null e) hmem with ⟨-, hold⟩ | ⟨-, -, hnew⟩
    · rw [hold hid] at haccepted
      cases haccepted
    · rw [hnew hkind] at haccepted
      cases haccepted

theorem Kept.learns (hk : w.Kept) (hevents : ∀ event ∈ events, Observation event)
    (hstatus : ∀ e, Unresolved (events ++ w.history) e → ∀ status, (e.opId, status) ∈ statuses →
      status.kind = .rejectedKnown → (e.opId, status) ∈ w.statuses) :
    Kept { w with statuses, history := events ++ w.history } := by
  refine ⟨?_, always_observations noReplacement_of_observation hevents hk.noReplacement⟩
  intro e h
  obtain ⟨hfile, hmemory, hold⟩ := hk.retained e (h.of_observations hevents)
  refine ⟨hfile, hmemory, ?_⟩
  intro status hmem hkind
  exact hold status (hstatus e h status hmem hkind) hkind

theorem Action.history (h : Action config w w') : ∃ events, w'.history = events ++ w.history := by
  cases h with
  | tunes _ _ _ | loadsNothing _ _ | loadFails _ _ | loads _ _ _ | rewrites _ _ | journals _ _ _ | adopts _ _ _ _
  | clears _ _ => exact ⟨[], rfl⟩
  | observes events _ => exact ⟨events, rfl⟩
  | signs _ _ => exact ⟨[_], rfl⟩
  | @submits e _ operation _ view =>
    refine ⟨finalizedEvents view.findsFinalized e.opId ++ [.submitted e.core w.file operation view], ?_⟩
    rw [List.append_assoc, List.singleton_append]

theorem Action.always {P : CoordinatorEvent → List CoordinatorEvent → Prop} (h : Action config w w')
    (hall : Always P w'.history) : Always P w.history := by
  obtain ⟨events, hhistory⟩ := h.history
  rw [hhistory] at hall
  exact hall.of_append

/-- The step: every action keeps what is unresolved in the journal or retained. -/
theorem Kept.action (hk : w.Kept) (hs : w.Sound config) (h : Action config w w')
    (hunrefused : Always Unrefused w'.history) : w'.Kept := by
  cases h with
  | tunes entry nextRelayRetry hentry =>
    refine ⟨?_, hk.noReplacement⟩
    intro e h
    obtain ⟨hfile, hmemory, hstatus⟩ := hk.retained e h
    exact ⟨hfile, fun hready => hentry.trans (hmemory hready), hstatus⟩
  | observes events hevents =>
    exact hk.learns hevents fun _ _ _ hmem _ => hmem
  | loadsNothing hfresh hnone =>
    refine ⟨?_, hk.noReplacement⟩
    intro e h
    -- there is no journal to keep the operation in
    have hfile := (hk.retained e h).file
    rcases hnone with hpath | hnone
    · rw [(hs.file _ hfile).1] at hpath
      cases hpath
    · rw [hnone] at hfile
      cases hfile
  | loadFails hfresh text =>
    refine ⟨?_, hk.noReplacement⟩
    intro e h
    obtain ⟨hfile, -, hstatus⟩ := hk.retained e h
    refine ⟨hfile, ?_, hstatus⟩
    intro hready
    cases hready.2
  | @loads hfresh bytes hfile entry hparse =>
    refine ⟨?_, hk.noReplacement⟩
    intro e h
    obtain ⟨hkept, -, hstatus⟩ := hk.retained e h
    refine ⟨hkept, fun _ => ?_, hstatus⟩
    rw [hfile] at hkept
    rw [Option.some.inj hkept] at hparse
    rw [parse_encodeJournal (h.1.exact hs.exact).2 hparse]
    rfl
  | @rewrites e hheld hsave =>
    rw [← (hs.of_entry hheld.entry).1]
    exact hk
  | @signs e hidle hrotation =>
    refine ⟨?_, ?_, hk.noReplacement⟩
    · intro e' h
      have hleft : Left w.history e' := by
        obtain ⟨file, operation, view, hmem, hoffers⟩ := h.1
        rcases List.mem_cons.mp hmem with heq | hmem
        · cases heq
        · exact ⟨file, operation, view, hmem, hoffers⟩
      exact absurd (hk.resolved_of_idle hidle hleft) (h.of_cons hleft).2
    · intro e' hleft _ _ _
      exact hk.resolved_of_idle hidle hleft
  | @journals e hidle hsigned hsave =>
    refine ⟨?_, hk.noReplacement⟩
    intro e' h
    exact absurd (hk.resolved_of_idle hidle h.1) h.2
  | @adopts e hidle hsigned hsave hfile =>
    refine ⟨?_, hk.noReplacement⟩
    intro e' h
    exact absurd (hk.resolved_of_idle hidle h.1) h.2
  | @submits e hheld operation hoperation view =>
    have hhead := (hunrefused.of_append).1
    refine ⟨fun e' h => hk.retained_submits hs hheld hhead h, ?_⟩
    exact always_observations noReplacement_of_observation observation_finalizedEvents ⟨trivial, hk.noReplacement⟩
  | @clears e hheld hclear =>
    refine ⟨?_, hk.noReplacement⟩
    intro e' h
    exact absurd h (hk.resolved_of_clearable hs hunrefused hheld hclear)

theorem Actions.always {P : CoordinatorEvent → List CoordinatorEvent → Prop} (h : Actions config w w')
    (hall : Always P w'.history) : Always P w.history := by
  induction h with
  | refl => exact hall
  | tail _ haction ih => exact ih (haction.always hall)

theorem keeps_actions (hs : w.Sound config) (h : Actions config w w') : w'.Sound config ∧
    (w.Kept → Always Unrefused w'.history → w'.Kept) := by
  induction h with
  | refl => exact ⟨hs, fun hk _ => hk⟩
  | tail _ haction ih =>
    refine ⟨ih.1.action haction, ?_⟩
    intro hk hunrefused
    exact (ih.2 hk (haction.always hunrefused)).action ih.1 haction hunrefused

/-! ### Runs -/

end IdentityCoordinator

open IdentityCoordinator

/-- A call of a public method, with the answers it meets. -/
inductive CoordinatorCall where
  | execute (keys : IdentityKeys) (request : IdentityRequest) (env : ExecuteEnvironment)
  | rotateIdentity (keys : IdentityKeys) (material : RotationMaterial) (env : RotateEnvironment)
  | retryRelayIfDue (env : RetryEnvironment)
  | completeIdentityRotation (canOpen removed : Bool) (finalizedIdentity : IdentityRecord)
  | hasPendingIdentityRotation (canOpen : Bool)
  | getStatus (opId : Hash256) (env : GetStatusEnvironment)

namespace CoordinatorCall

def after {α : Type} (x : CoordinatorM α) (w : IdentityCoordinator) : IdentityCoordinator :=
  match x w with
  | .ok _ w' => w'
  | .error _ w' => w'

def perform (config : CoordinatorConfig) : CoordinatorCall → IdentityCoordinator → IdentityCoordinator
  | .execute keys request env => after (IdentityCoordinator.execute config keys request env)
  | .rotateIdentity keys material env => after (IdentityCoordinator.rotateIdentity config keys material env)
  | .retryRelayIfDue env => after (IdentityCoordinator.retryRelayIfDue config env)
  | .completeIdentityRotation canOpen removed finalizedIdentity =>
    after (IdentityCoordinator.completeIdentityRotation config canOpen removed finalizedIdentity)
  | .hasPendingIdentityRotation canOpen => after (IdentityCoordinator.hasPendingIdentityRotation config canOpen)
  | .getStatus opId env => after (IdentityCoordinator.getStatus config opId env)

variable {config : CoordinatorConfig} {w : IdentityCoordinator}

theorem actions_after {α : Type} {x : CoordinatorM α} {Q : α → IdentityCoordinator → Prop}
    (h : Does config w x Q) : Actions config w (after x w) := by
  unfold Does Proc.wp at h
  unfold after
  cases hx : x w with
  | ok a w' =>
    rw [hx] at h
    exact h.1
  | error error w' => cases error

/-- **A call is a sequence of actions.** -/
theorem actions_perform (hempty : w.loaded = false → w.loadError = none) (call : CoordinatorCall) :
    Actions config w (call.perform config w) := by
  cases call with
  | execute keys request env => exact actions_after (does_execute hempty keys request env)
  | rotateIdentity keys material env => exact actions_after (does_rotateIdentity hempty keys material env)
  | retryRelayIfDue env => exact actions_after (does_retryRelayIfDue hempty env)
  | completeIdentityRotation canOpen removed finalizedIdentity =>
    exact actions_after (does_completeIdentityRotation hempty canOpen removed finalizedIdentity)
  | hasPendingIdentityRotation canOpen => exact actions_after (does_hasPendingIdentityRotation hempty canOpen)
  | getStatus opId env => exact actions_after (does_getStatus hempty opId env)

end CoordinatorCall

/-- A run from an empty journal.  The memory of the coordinator and of the runtime is lost
    in a restart; the other submissions of the node are of operations the coordinator did
    not sign. -/
inductive CoordinatorRun (config : CoordinatorConfig) : IdentityCoordinator → Prop
  | start : CoordinatorRun config {}
  | call {w : IdentityCoordinator} (hrun : CoordinatorRun config w) (call : CoordinatorCall) :
      CoordinatorRun config (call.perform config w)
  | restart {w : IdentityCoordinator} (hrun : CoordinatorRun config w) :
      CoordinatorRun config { file := w.file, history := w.history }
  | finalizes {w : IdentityCoordinator} (hrun : CoordinatorRun config w) (opId : Hash256) (height : UInt64) :
      CoordinatorRun config { w with
        statuses := rememberOperationStatus w.statuses opId { kind := .finalized, finalizedHeight := height }
        history := .finalized opId :: w.history }
  | advances {w : IdentityCoordinator} (hrun : CoordinatorRun config w) (accountId : AccountId) (nonce : UInt64) :
      CoordinatorRun config { w with history := .advanced accountId nonce :: w.history }
  | submitsOther {w : IdentityCoordinator} (hrun : CoordinatorRun config w) {opId : Hash256}
      (hother : opId.isNull = false ∧ ∀ e, .signed e ∈ w.history → e.opId ≠ opId) (view : SubmissionView) :
      CoordinatorRun config { w with
        statuses := (submitOperation view opId w.statuses).2
        history := finalizedEvents view.findsFinalized opId ++ w.history }

def IdentityCoordinator.Journals (config : CoordinatorConfig) (w : IdentityCoordinator) (e : JournalEntry) : Prop :=
  w.entry = some e ∨ ∃ bytes, w.file = some bytes ∧ parseJournal config.networkBinding bytes = .ok e

structure JournalContract (config : CoordinatorConfig) (w : IdentityCoordinator) : Prop where
  oneJournaled : ∀ e e', w.Journals config e → w.Journals config e' → e.core = e'.core
  oneUnresolved : ∀ e e', Unresolved w.history e → Unresolved w.history e' → e.core = e'.core
  exactBytes : Always Exact w.history
  noReplacement : Always NoReplacement w.history

section

variable {config : CoordinatorConfig} {w w' : IdentityCoordinator}

theorem sound_start : IdentityCoordinator.Sound config {} := by
  refine { fresh := fun _ => ⟨rfl, rfl⟩, file := ?_, entry := ?_, signed := ?_, exact := trivial, finalized := ?_ }
  · intro bytes h
    cases h
  · intro e h
    cases h
  · intro e h
    cases h
  · intro opId status h
    cases h

theorem IdentityCoordinator.Sound.restart (hs : w.Sound config) :
    IdentityCoordinator.Sound config { file := w.file, history := w.history } := by
  refine { fresh := fun _ => ⟨rfl, rfl⟩, file := hs.file, entry := ?_, signed := hs.signed, exact := hs.exact,
           finalized := ?_ }
  · intro e h
    cases h
  · intro opId status h
    cases h

theorem finalized_of_remembered (hs : w.Sound config) {opId id : Hash256} {height : UInt64}
    {status : OperationStatus} (hmem : (id, status) ∈ rememberOperationStatus w.statuses opId
      { kind := .finalized, finalizedHeight := height }) (hkind : status.kind = .finalized) :
    .finalized id ∈ [.finalized opId] ++ w.history := by
  rcases mem_rememberOperationStatus hmem with heq | ⟨-, hold⟩
  · rw [(Prod.mk.inj heq).1]
    exact List.mem_cons_self
  · exact List.mem_cons_of_mem _ (hs.finalized id status hold hkind)

theorem CoordinatorRun.sound (hrun : CoordinatorRun config w) : w.Sound config := by
  induction hrun with
  | start => exact sound_start
  | call hrun call ih => exact (keeps_actions ih (call.actions_perform fun h => (ih.fresh h).1)).1
  | restart hrun ih => exact ih.restart
  | finalizes hrun opId height ih =>
    refine ih.learns (observation_finalized opId) ?_
    intro id status hmem hkind
    exact finalized_of_remembered ih hmem hkind
  | advances hrun accountId nonce ih =>
    refine ih.learns (observation_advanced accountId nonce) ?_
    intro id status hmem hkind
    exact List.mem_cons_of_mem _ (ih.finalized id status hmem hkind)
  | @submitsOther w hrun opId hother view ih =>
    refine ih.learns observation_finalizedEvents ?_
    intro id status hmem hkind
    rcases status_of_submitOperation hother.1 hmem with ⟨hold, -⟩ | ⟨hid, hfinds, -⟩
    · exact List.mem_append_right _ (ih.finalized id status hold hkind)
    · rw [hid, hfinds hkind]
      exact List.mem_cons_self

/-- The run, by induction on its actions. -/
theorem CoordinatorRun.kept (hrun : CoordinatorRun config w) (hunrefused : Always Unrefused w.history) :
    w.Kept := by
  induction hrun with
  | start =>
    refine ⟨?_, trivial⟩
    intro e h
    obtain ⟨file, operation, view, hmem, -⟩ := h.1
    cases hmem
  | @call w hrun call ih =>
    have hactions : Actions config w (call.perform config w) :=
      call.actions_perform fun h => (hrun.sound.fresh h).1
    exact (keeps_actions hrun.sound hactions).2 (ih (hactions.always hunrefused)) hunrefused
  | restart hrun ih =>
    obtain ⟨hretained, hsigned⟩ := ih hunrefused
    refine ⟨?_, hsigned⟩
    intro e h
    refine ⟨(hretained e h).file, ?_, nofun⟩
    intro hready
    cases hready.1
  | finalizes hrun opId height ih =>
    refine (ih hunrefused.2).learns (observation_finalized opId) ?_
    intro e h status hmem hkind
    rcases mem_rememberOperationStatus hmem with heq | ⟨-, hold⟩
    · rw [(Prod.mk.inj heq).2] at hkind
      cases hkind
    · exact hold
  | advances hrun accountId nonce ih =>
    refine (ih hunrefused.2).learns (observation_advanced accountId nonce) ?_
    intro e h status hmem hkind
    exact hmem
  | @submitsOther w hrun opId hother view ih =>
    refine (ih hunrefused.of_append).learns observation_finalizedEvents ?_
    intro e h status hmem hkind
    have hsigned := ((h.of_observations observation_finalizedEvents).1.exact hrun.sound.exact).1
    rcases status_of_submitOperation hother.1 hmem with ⟨hold, -⟩ | ⟨hid, -⟩
    · exact hold
    · exact absurd hid (hother.2 e.core hsigned)

theorem IdentityCoordinator.Sound.journals (hs : w.Sound config) {e : JournalEntry} (h : w.Journals config e) :
    w.file = some (encodeJournal e) := by
  rcases h with hentry | ⟨bytes, hfile, hparse⟩
  · exact (hs.entry e hentry).1
  · obtain ⟨-, source, hbytes, hsize, -⟩ := hs.file bytes hfile
    rw [hbytes] at hparse hfile
    rw [parse_encodeJournal hsize hparse]
    exact hfile

/-- **The journal over a whole run** in which no operation that has left the node and is
    unresolved is refused by the node itself. -/
theorem journal_runs (config : CoordinatorConfig) {w : IdentityCoordinator} (hrun : CoordinatorRun config w)
    (hunrefused : Always Unrefused w.history) : JournalContract config w := by
  have hs := hrun.sound
  have hk := hrun.kept hunrefused
  refine { oneJournaled := ?_, oneUnresolved := ?_, exactBytes := hs.exact, noReplacement := hk.noReplacement }
  · intro e e' h h'
    have hfile := hs.journals h
    rw [hs.journals h'] at hfile
    exact core_of_encodeJournal (Option.some.inj hfile).symm
  · intro e e' h h'
    have hfile := (hk.retained e h).file
    rw [(hk.retained e' h').file] at hfile
    exact core_of_encodeJournal (Option.some.inj hfile).symm

/-- Whether an operation was signed for the nonce of an unresolved one, as a check that can
    be run. -/
def replaces : List CoordinatorEvent → Bool
  | [] => false
  | .signed e' :: earlier => earlier.any (fun
      | .submitted e _ _ view => view.offers && decide (e.phase = .prepared ∧ e.accountId = e'.accountId ∧
          e.nonce = e'.nonce ∧ e.opId ≠ e'.opId) && earlier.all fun
            | .finalized opId => decide (opId ≠ e.opId)
            | .advanced accountId nonce => decide ¬(accountId = e.accountId ∧ e.nonce < nonce)
            | _ => true
      | _ => false) || replaces earlier
  | _ :: earlier => replaces earlier

theorem not_noReplacement_of_replaces {history : List CoordinatorEvent} (h : replaces history = true) :
    ¬Always NoReplacement history := by
  induction history with
  | nil => cases h
  | cons event earlier ih =>
    intro hall
    cases event with
    | signed e' =>
      rw [replaces, Bool.or_eq_true, List.any_eq_true] at h
      rcases h with ⟨submission, hmem, hreplaces⟩ | hbefore
      · cases submission with
        | submitted e file operation view =>
          simp only [Bool.and_eq_true, decide_eq_true_eq, List.all_eq_true] at hreplaces
          obtain ⟨⟨hoffers, hphase, haccount, hnonce, hid⟩, hunresolved⟩ := hreplaces
          rw [← e.core_of_prepared hphase] at hmem
          have hresolved := hall.1 e ⟨file, operation, view, hmem, hoffers⟩ haccount hnonce hid
          rcases hresolved with hfinal | ⟨nonce, hadvanced, hlt⟩
          · simpa using hunresolved _ hfinal
          · simpa [hlt] using hunresolved _ hadvanced
        | signed _ | finalized _ | advanced _ _ => cases hreplaces
      · exact ih hbefore hall.2
    | submitted _ _ _ _ | finalized _ | advanced _ _ => exact ih h hall.2

theorem not_journalContract_of_replaces (h : replaces w.history = true) : ¬JournalContract config w := by
  intro hcontract
  exact not_noReplacement_of_replaces h hcontract.noReplacement

def refusesNone (history : List CoordinatorEvent) : Bool :=
  history.all fun
    | .submitted _ _ _ view => !view.refuses
    | _ => true

theorem unrefused_of_refusesNone {history : List CoordinatorEvent} (h : refusesNone history = true) :
    Always Unrefused history := by
  induction history with
  | nil => trivial
  | cons event earlier ih =>
    rw [refusesNone, List.all_cons, Bool.and_eq_true] at h
    refine ⟨?_, ih h.2⟩
    cases event with
    | submitted e file operation view =>
      intro hrefuses
      have haccepted := h.1
      dsimp only at haccepted
      rw [hrefuses] at haccepted
      cases haccepted
    | signed _ | finalized _ | advanced _ _ => trivial

end

end

section Sample

open IdentityCoordinator

attribute [local instance] Crypto.sample

def sampleConfig : CoordinatorConfig := { networkBinding := sampleId 200, interval_pos := by decide }

def lockerPackage : IdentityKemPackage :=
  ⟨0x7a :: 0x64 :: List.replicate 1216 1, congrArg (· + 2) (List.length_replicate ..)⟩

/-- Account 1 of the sample network, unlocked, and its finalized record. -/
def lockerKeys : IdentityKeys where
  accountId := some (sampleId 1)
  authorizationKey := some (sampleKey .authorization 1)
  recoveryKey := some (sampleKey .recoveryRoot 1)
  kemPackage := some lockerPackage
  signAuthorization _ := some sampleSignature

def lockerRecord : IdentityRecord :=
  { sampleRecord 1 with
    kemPackageId := (computeIdentityKemPackageCommitment (sampleId 200) (sampleId 1) 0 lockerPackage).getD
      Hash256.ZERO }

def lockRequest (amount : UInt64) : IdentityRequest where
  kind := .systemLock
  payloadCommitment := (computeSystemLockPayloadCommitment ⟨amount⟩).getD Hash256.ZERO
  build auth := some (.systemLock ⟨auth, ⟨amount⟩⟩)

def queuedView : SubmissionView where
  peers := some { acknowledgment := some { status := .relayQueued, opId := Hash256.ZERO } }

def fullPoolView : SubmissionView where
  admission := .rejected

def lockCall (amount : UInt64) : CoordinatorCall :=
  .execute lockerKeys (lockRequest amount) { record := some lockerRecord, submit := { view := queuedView } }

/-- After a restart the retry of the first lock finds the pool full, and a second one is
    requested. -/
def restartedLock : IdentityCoordinator :=
  { file := ((lockCall 1).perform sampleConfig {}).file, history := ((lockCall 1).perform sampleConfig {}).history }

def refusedRetry : CoordinatorCall := .retryRelayIfDue { submit := { view := fullPoolView } }

def replacedLock : IdentityCoordinator :=
  (lockCall 2).perform sampleConfig (refusedRetry.perform sampleConfig restartedLock)

/-- The state after the lock was queued and retried by peers that queue it again. -/
def retriedLock : IdentityCoordinator :=
  CoordinatorCall.perform sampleConfig (.retryRelayIfDue { submit := { view := queuedView } }) restartedLock

theorem sampleLocks_evaluated : replaces replacedLock.history = true ∧ retriedLock.history.length = 4 ∧
    refusesNone retriedLock.history = true := by
  decide +kernel

theorem coordinatorRun_restartedLock : CoordinatorRun sampleConfig restartedLock := by
  unfold restartedLock
  exact CoordinatorRun.restart (CoordinatorRun.call CoordinatorRun.start (lockCall 1))

theorem coordinatorRun_replacedLock : CoordinatorRun sampleConfig replacedLock := by
  unfold replacedLock
  exact CoordinatorRun.call (CoordinatorRun.call coordinatorRun_restartedLock refusedRetry) (lockCall 2)

/-- The second lock is signed for the nonce of the first one, whose copies are still in
    the queues of the peers. -/
theorem journal_replaced : ¬∀ (config : CoordinatorConfig) (w : IdentityCoordinator),
    CoordinatorRun config w → JournalContract config w := by
  intro h
  exact not_journalContract_of_replaces sampleLocks_evaluated.1 (h _ _ coordinatorRun_replacedLock)

theorem coordinatorRun_retriedLock : CoordinatorRun sampleConfig retriedLock := by
  unfold retriedLock
  exact CoordinatorRun.call coordinatorRun_restartedLock _

theorem journal_runs_retriedLock : ∃ w, CoordinatorRun sampleConfig w ∧ w.history.length = 4 ∧
    JournalContract sampleConfig w := by
  have hexists : ∃ w, CoordinatorRun sampleConfig w ∧ w.history.length = 4 ∧ refusesNone w.history = true :=
    ⟨retriedLock, coordinatorRun_retriedLock, sampleLocks_evaluated.2⟩
  obtain ⟨w, hrun, hlength, hnone⟩ := hexists
  exact ⟨w, hrun, hlength, journal_runs sampleConfig hrun (unrefused_of_refusesNone hnone)⟩

end Sample

end Cybou

import Cybou.IdentityCoordinator

/-! # What a call of the identity operation coordinator can do

Every call is a sequence of a few kinds of actions (`Action`): it loads, saves or
clears the journal, signs, submits, or learns something of the finalized chain.
`Clearable` lists the grounds on which a journal is cleared.  Each method has one
lemma (`does_execute`, ...); the invariants of a run are derived from the actions
alone.
-/

namespace Cybou

open Library Library.History

variable [Crypto]

namespace IdentityCoordinator

/-! ### What a history says of an operation -/

/-- The operation was offered to the peers: it was queued or accepted there, or its
    delivery is uncertain. -/
def Left (history : List CoordinatorEvent) (e : JournalEntry) : Prop :=
  ∃ file operation view, .submitted e.core file operation view ∈ history ∧ view.offers = true

/-- The operation was seen finalized, or the finalized nonce beyond it. -/
def Resolved (history : List CoordinatorEvent) (e : JournalEntry) : Prop :=
  .finalized e.opId ∈ history ∨ ∃ nonce, .advanced e.accountId nonce ∈ history ∧ e.nonce < nonce

section

variable {history history' : List CoordinatorEvent} {e : JournalEntry}

theorem Resolved.mono (h : Resolved history e) (hsub : history ⊆ history') : Resolved history' e := by
  rcases h with h | ⟨nonce, hmem, hlt⟩
  · exact .inl (hsub h)
  · exact .inr ⟨nonce, hsub hmem, hlt⟩

/-- The events that say something of the chain only. -/
def Observation : CoordinatorEvent → Prop
  | .finalized _ | .advanced _ _ => True
  | .signed _ | .submitted _ _ _ _ => False

theorem observation_finalizedEvents {found : Bool} {opId : Hash256} :
    ∀ event ∈ finalizedEvents found opId, Observation event := by
  cases found with
  | false => simp [finalizedEvents]
  | true =>
    intro event hevent
    rw [List.mem_singleton.mp hevent]
    trivial

theorem observation_recordEvents {accountId : AccountId} {record : Option IdentityRecord} :
    ∀ event ∈ recordEvents accountId record, Observation event := by
  cases record with
  | none => simp [recordEvents]
  | some found =>
    intro event hevent
    rw [List.mem_singleton.mp hevent]
    trivial

theorem Left.of_observations {events : List CoordinatorEvent} (hevents : ∀ event ∈ events, Observation event)
    (h : Left (events ++ history) e) : Left history e := by
  obtain ⟨file, operation, view, hmem, hoffers⟩ := h
  rcases List.mem_append.mp hmem with hmem | hmem
  · exact (hevents _ hmem).elim
  · exact ⟨file, operation, view, hmem, hoffers⟩

end

/-! ### Actions -/

/-- The journal was loaded without an error. -/
def Ready (w : IdentityCoordinator) : Prop := w.loaded = true ∧ w.loadError = none

/-- The entry is the one in memory, but for its phase. -/
structure Held (w : IdentityCoordinator) (e : JournalEntry) : Prop where
  ready : w.Ready
  entry : w.entry.map JournalEntry.core = some e.core

inductive Clearable (w : IdentityCoordinator) (e : JournalEntry) : Prop
  | finalized (h : .finalized e.opId ∈ w.history)
  | remembered (status : OperationStatus) (hmem : (e.opId, status) ∈ w.statuses)
      (hkind : status.kind = .finalized ∨ status.kind = .rejectedKnown)
  | refused (file : Option Bytes) (operation : ProtocolOperation) (view : SubmissionView)
      (earlier : List CoordinatorEvent) (hhistory : w.history = .submitted e.core file operation view :: earlier)
      (hrefuses : view.refuses = true)
  | rotated (rotate : IdentityRotate) (hkind : e.kind = 0)
      (hrotate : deserializeProtocolOperation e.operationBytes = some (.identityRotate rotate))
      (hadvanced : .advanced e.accountId (rotate.nonce + 1) ∈ w.history)

def RotationSigned (e : JournalEntry) : Prop :=
  e.kind = 0 → ∀ rotate, deserializeProtocolOperation e.operationBytes = some (.identityRotate rotate) →
    rotate.nonce = e.nonce ∧ e.nonce ≠ UINT64_MAX

/-- The journal is loaded and empty, as it is while a new operation is signed. -/
def Idle (w : IdentityCoordinator) : Prop := w.Ready ∧ w.entry = none

inductive Action (config : CoordinatorConfig) (w : IdentityCoordinator) : IdentityCoordinator → Prop
  | tunes (entry : Option JournalEntry) (nextRelayRetry : Option Nat)
      (hentry : entry.map JournalEntry.core = w.entry.map JournalEntry.core) :
      Action config w { w with entry, nextRelayRetry }
  | observes (events : List CoordinatorEvent) (hevents : ∀ event ∈ events, Observation event) :
      Action config w { w with history := events ++ w.history }
  | loadsNothing (hfresh : w.loaded = false) (hnone : config.hasJournalPath = false ∨ w.file = none) :
      Action config w { w with loaded := true }
  | loadFails (hfresh : w.loaded = false) (text : String) :
      Action config w { w with loaded := true, loadError := some text }
  | loads (hfresh : w.loaded = false) {bytes : Bytes} (hfile : w.file = some bytes) {entry : JournalEntry}
      (hparse : parseJournal config.networkBinding bytes = .ok entry) :
      Action config w { w with loaded := true, entry := some entry }
  | rewrites {e : JournalEntry} (hheld : w.Held e) (hsave : canSave config e = true) :
      Action config w { w with file := some (encodeJournal e) }
  | signs {e : JournalEntry} (hidle : w.Idle) (hrotation : RotationSigned e) :
      Action config w { w with history := .signed e.core :: w.history }
  | journals {e : JournalEntry} (hidle : w.Idle) (hsigned : .signed e.core ∈ w.history)
      (hsave : canSave config e = true) :
      Action config w { w with file := some (encodeJournal e) }
  | adopts {e : JournalEntry} (hidle : w.Idle) (hsigned : .signed e.core ∈ w.history)
      (hsave : canSave config e = true) (hfile : w.file = some (encodeJournal e)) :
      Action config w { w with entry := some e }
  | submits {e : JournalEntry} (hheld : w.Held e) {operation : ProtocolOperation}
      (hoperation : deserializeProtocolOperation e.operationBytes = some operation) (view : SubmissionView) :
      Action config w { w with
        statuses := (submitOperation view e.opId w.statuses).2
        history := finalizedEvents view.findsFinalized e.opId ++ .submitted e.core w.file operation view :: w.history }
  | clears {e : JournalEntry} (hheld : w.Held e) (hclear : w.Clearable e) :
      Action config w { w with
        file := if config.hasJournalPath then none else w.file, entry := none, nextRelayRetry := none }

def Actions (config : CoordinatorConfig) : IdentityCoordinator → IdentityCoordinator → Prop :=
  Relation.ReflTransGen (Action config)

variable {config : CoordinatorConfig} {w w' : IdentityCoordinator} {e : JournalEntry}

/-- A call that consists of actions and ends in `Q`. -/
def Does (config : CoordinatorConfig) (w : IdentityCoordinator) {α : Type} (x : CoordinatorM α)
    (Q : α → IdentityCoordinator → Prop) : Prop :=
  Proc.wp x (fun a w' => Actions config w w' ∧ Q a w') (fun _ _ => True) w

section

variable {α β : Type} {x : CoordinatorM α} {f : α → CoordinatorM β} {Q Q' : α → IdentityCoordinator → Prop}
  {R : β → IdentityCoordinator → Prop} {a : α}

theorem does_pure (h : Q a w) : Does config w (pure a) Q := ⟨.refl, h⟩

theorem Does.bind (hx : Does config w x Q) (hf : ∀ a w', Q a w' → Does config w' (f a) R) :
    Does config w (x >>= f) R := by
  refine Proc.wp_bind.mpr (Proc.wp_mono hx ?_ fun _ _ h => h)
  intro a w' ⟨hactions, hQ⟩
  refine Proc.wp_mono (hf a w' hQ) ?_ fun _ _ h => h
  intro b w'' ⟨hactions', hR⟩
  exact ⟨hactions.trans hactions', hR⟩

theorem Does.mono (hx : Does config w x Q) (hQ : ∀ a w', Q a w' → Q' a w') : Does config w x Q' := by
  refine Proc.wp_mono hx ?_ fun _ _ h => h
  intro a w' ⟨hactions, h⟩
  exact ⟨hactions, hQ a w' h⟩

theorem does_get_bind {f : IdentityCoordinator → CoordinatorM β} (h : Does config w (f w) R) :
    Does config w (get >>= f) R := h

theorem does_modify {g : IdentityCoordinator → IdentityCoordinator} (h : Action config w (g w)) :
    Does config w (modify g) (fun _ w' => w' = g w) :=
  ⟨.single h, rfl⟩

theorem does_set {v : IdentityCoordinator} (h : Action config w v) :
    Does config w (set v) (fun _ w' => w' = v) :=
  ⟨.single h, rfl⟩

end

/-! ### What the calls do -/

section

variable {α : Type} {Q : OperationStatus → IdentityCoordinator → Prop}

theorem Held.of_entry (hready : w.Ready) (hentry : w.entry = some e) : w.Held e :=
  ⟨hready, by rw [hentry, Option.map_some]⟩

/-- The entry stays in memory and nothing new is known of it. -/
structure Keeps (w : IdentityCoordinator) (e : JournalEntry) (w' : IdentityCoordinator) : Prop where
  held : w'.Held e
  history : w'.history = w.history
  statuses : w'.statuses = w.statuses

theorem Clearable.keeps (hclear : w.Clearable e) (h : w.Keeps e w') : w'.Clearable e := by
  cases hclear with
  | finalized hmem =>
    refine .finalized ?_
    rw [h.history]
    exact hmem
  | remembered status hmem hkind =>
    refine .remembered status ?_ hkind
    rw [h.statuses]
    exact hmem
  | refused file operation view earlier hhistory hrefuses =>
    exact .refused file operation view earlier (h.history.trans hhistory) hrefuses
  | rotated rotate hkind hrotate hadvanced =>
    refine .rotated rotate hkind hrotate ?_
    rw [h.history]
    exact hadvanced

theorem does_queryStatus (view : StatusView) (opId : Hash256) :
    Does config w (queryStatus view opId) (fun status w' =>
      w' = { w with history := finalizedEvents view.finalizedHeight.isSome opId ++ w.history } ∧
        ((status.kind = .finalized ∨ status.kind = .rejectedKnown) →
          .finalized opId ∈ w'.history ∨ (opId, status) ∈ w'.statuses)) := by
  unfold queryStatus
  refine does_get_bind (Does.bind (does_set (.observes _ observation_finalizedEvents)) ?_)
  intro _ w' hw'
  subst hw'
  refine does_pure ⟨rfl, ?_⟩
  intro hkind
  cases hheight : view.finalizedHeight with
  | some height => exact .inl List.mem_cons_self
  | none =>
    refine .inr (mem_of_getOperationStatus ?_)
    exact hkind.symm.imp_right fun hfinalized => ⟨hfinalized, hheight⟩

theorem does_findRecord (accountId : AccountId) (record : Option IdentityRecord) :
    Does config w (findRecord accountId record) (fun found w' =>
      found = record ∧ w' = { w with history := recordEvents accountId record ++ w.history }) := by
  unfold findRecord
  refine does_get_bind (Does.bind (does_set (.observes _ observation_recordEvents)) ?_)
  intro _ w' hw'
  exact does_pure ⟨rfl, hw'⟩

theorem does_setRelayRetry (h : w.Held e) (next : Option Nat) :
    Does config w (setRelayRetry next) (fun _ w' => w.Keeps e w') := by
  refine (does_modify (.tunes w.entry next rfl)).mono ?_
  intro _ w' hw'
  subst hw'
  exact ⟨⟨h.ready, h.entry⟩, rfl, rfl⟩

theorem does_enterPhase (h : w.Held e) (phase : IdentityOperationPhase) :
    Does config w (enterPhase e phase) (fun _ w' => w.Keeps e w') := by
  refine (does_modify (.tunes (some (e.setPhase phase)) w.nextRelayRetry h.entry.symm)).mono ?_
  intro _ w' hw'
  subst hw'
  exact ⟨⟨h.ready, rfl⟩, rfl, rfl⟩

theorem does_saveJournal (h : w.Held e) (fate : Fate) :
    Does config w (saveJournal config e fate) (fun _ w' => w.Keeps e w') := by
  unfold saveJournal
  split
  · exact does_pure ⟨h, rfl, rfl⟩
  next hsave =>
  have hsave := eq_true_of_ne_false hsave
  cases fate with
  | lost =>
    refine Does.bind (does_modify (.tunes w.entry w.nextRelayRetry rfl)) ?_
    intro _ w' hw'
    subst hw'
    exact does_pure ⟨h, rfl, rfl⟩
  | done | stored =>
    refine Does.bind (does_modify (.rewrites h hsave)) ?_
    intro _ w' hw'
    subst hw'
    exact does_pure ⟨⟨h.ready, h.entry⟩, rfl, rfl⟩

theorem does_clearJournal (h : w.Held e) (hclear : w.Clearable e) (removed : Bool) :
    Does config w (clearJournal config removed) (fun _ w' => w'.Ready) := by
  unfold clearJournal
  split
  · exact does_pure h.ready
  refine Does.bind (does_modify (.clears h hclear)) ?_
  intro _ w' hw'
  subst hw'
  exact does_pure h.ready

variable {operation : ProtocolOperation}

/-- A submission of the journaled operation.  Where it is refused without uncertainty
    the node itself refused it. -/
theorem does_submitJournaled (h : w.Held e)
    (hoperation : deserializeProtocolOperation e.operationBytes = some operation) (view : SubmissionView) :
    Does config w (submitJournaled e operation view) (fun result w' => w'.Held e ∧
      (result.status = .alreadyFinalized → .finalized e.opId ∈ w'.history) ∧
      (result.isOk = false → result.deliveryUncertain = false → w'.Clearable e)) := by
  have hid : (computeOperationId operation).getD Hash256.ZERO = e.opId := by
    rw [(e.of_deserialize hoperation).2, Option.getD_some]
  unfold submitJournaled
  refine does_get_bind ?_
  rw [hid]
  refine Does.bind (does_set (.submits h hoperation view)) ?_
  intro _ w' hw'
  subst hw'
  refine does_pure ⟨⟨h.ready, h.entry⟩, ?_⟩
  cases hresult : submitOperation view e.opId w.statuses with
  | mk result statuses =>
  have hcases := submitOperation_cases view e.opId w.statuses
  rw [hresult] at hcases
  dsimp only at hcases ⊢
  cases hcases with
  | refused hrefuses hok hcertain hstatuses =>
    have hfinds : view.findsFinalized = false := SubmissionView.findsFinalized_of_refuses hrefuses
    refine ⟨?_, fun _ _ => ?_⟩
    · intro hstatus
      simp [OperationSubmitResult.isOk, hstatus] at hok
    · exact .refused w.file operation view w.history (by rw [hfinds]; rfl) hrefuses
  | finalized hfinds height hstatus hcertain =>
    refine ⟨fun _ => ?_, ?_⟩
    · rw [hfinds]
      exact List.mem_cons_self
    · intro hok
      simp [OperationSubmitResult.isOk, hstatus] at hok
  | held hadmits hoffers hstatus hcertain =>
    refine ⟨?_, ?_⟩
    · intro hfinal
      rw [hfinal] at hstatus
      rcases hstatus with h | h <;> cases h
    · intro hok
      rcases hstatus with h | h <;> simp [OperationSubmitResult.isOk, h] at hok
  | taken hoffers hstatus =>
    refine ⟨?_, ?_⟩
    · intro hfinal
      rw [hfinal] at hstatus
      rcases hstatus with h | h | h <;> cases h
    · intro hok
      rcases hstatus with h | h | h <;> simp [OperationSubmitResult.isOk, h] at hok
  | uncertain hoffers hok huncertain =>
    refine ⟨?_, ?_⟩
    · intro hstatus
      simp [OperationSubmitResult.isOk, hstatus] at hok
    · intro _ hcertain
      rw [huncertain] at hcertain
      cases hcertain

theorem does_retainUncertain (h : w.Held e) (env : SubmitEnvironment) (relayRetryInFlight : Bool) :
    Does config w (retainUncertain config env e relayRetryInFlight) (fun _ w' => w'.Ready) := by
  unfold retainUncertain
  refine does_get_bind (Does.bind (does_setRelayRetry h _) ?_)
  intro _ w₁ h₁
  refine Does.bind (does_enterPhase h₁.held .uncertain) ?_
  intro _ w₂ h₂
  refine Does.bind (does_saveJournal h₂.held env.saveAfter) ?_
  intro _ w₃ h₃
  exact does_pure h₃.held.ready

theorem does_retainAdmitted (h : w.Held e) (env : SubmitEnvironment) (result : OperationSubmitResult)
    (hfinal : result.status = .alreadyFinalized → .finalized e.opId ∈ w.history) :
    Does config w (retainAdmitted config env e result) (fun _ w' => w'.Ready) := by
  unfold retainAdmitted
  refine does_get_bind (Does.bind (does_enterPhase h _) ?_)
  intro _ w₁ h₁
  refine Does.bind (does_setRelayRetry h₁.held _) ?_
  intro _ w₂ h₂
  refine Does.bind (does_saveJournal h₂.held env.saveAfter) ?_
  intro saved w₃ h₃
  split
  · exact does_pure h₃.held.ready
  split
  · next hphase =>
    -- only a finalized submission has the finalized phase
    have hstatus : result.status = .alreadyFinalized := by
      by_contra hne
      rw [resultPhase, if_neg hne] at hphase
      cases hphase.1
    have hevent : .finalized e.opId ∈ w₃.history := by
      rw [h₃.history, h₂.history, h₁.history]
      exact hfinal hstatus
    refine Does.bind (does_clearJournal h₃.held (.finalized hevent) env.removed) ?_
    intro _ w₄ hready
    exact does_pure hready
  · exact does_pure h₃.held.ready

theorem does_submitExact (h : w.Held e) (env : SubmitEnvironment) :
    Does config w (submitExact config env e) (fun _ w' => w'.Ready) := by
  unfold submitExact
  split
  · exact does_pure h.ready
  next operation hoperation =>
  refine does_get_bind (Does.bind (does_enterPhase h .submitting) ?_)
  intro _ w₁ h₁
  refine Does.bind (does_saveJournal h₁.held env.saveBefore) ?_
  intro saved w₂ h₂
  split
  · exact does_pure h₂.held.ready
  refine Does.bind (does_submitJournaled h₂.held hoperation env.view) ?_
  intro result w₃ ⟨hheld, hfinal, hrefused⟩
  split
  · exact does_retainAdmitted hheld env result hfinal
  next hok =>
  split
  · exact does_retainUncertain hheld env _
  next hcertain =>
  have hclear := hrefused (Bool.eq_false_of_not_eq_true hok) (Bool.eq_false_of_not_eq_true hcertain)
  refine Does.bind (does_clearJournal hheld hclear env.removed) ?_
  intro _ w₄ hready
  exact does_pure hready

theorem does_reconcileWaiting (h : w.Held e) (env : ReconcileEnvironment) (status : OperationStatus) :
    Does config w (reconcileWaiting config env e status) (fun _ w' => w'.Ready) := by
  unfold reconcileWaiting
  refine does_get_bind ?_
  split
  · refine Does.bind (does_enterPhase h .accepted) ?_
    intro _ w₁ h₁
    split
    · exact does_submitExact h₁.held env.submit
    · exact does_pure h₁.held.ready
  split
  · exact does_pure h.ready
  · exact does_submitExact h env.submit

theorem does_reconcileFinalized (h : w.Held e) (hclear : w.Clearable e) (env : ReconcileEnvironment)
    (status : OperationStatus) :
    Does config w (reconcileFinalized config env e status) (fun _ w' => w'.Ready) := by
  unfold reconcileFinalized
  refine Does.bind (does_setRelayRetry h none) ?_
  intro _ w₁ h₁
  split
  · refine Does.bind (does_clearJournal h₁.held (hclear.keeps h₁) env.removed) ?_
    intro cleared w₂ hready
    split <;> exact does_pure hready
  · exact does_pure h₁.held.ready

/-- `Reconcile` ends with a loaded journal, whether the entry is cleared or stays. -/
theorem does_reconcile (h : w.Held e) (env : ReconcileEnvironment) :
    Does config w (reconcile config env e) (fun _ w' => w'.Ready) := by
  unfold reconcile
  refine Does.bind (does_queryStatus env.status e.opId) ?_
  intro status w₁ ⟨hw₁, hsettled⟩
  have hheld : w₁.Held e := by
    subst hw₁
    exact ⟨h.ready, h.entry⟩
  have hclear : status.kind = .finalized ∨ status.kind = .rejectedKnown → w₁.Clearable e := by
    intro hkind
    rcases hsettled hkind with hmem | hmem
    · exact .finalized hmem
    · exact .remembered status hmem hkind
  split
  · next hfinal => exact does_reconcileFinalized hheld (hclear (.inl hfinal)) env status
  split
  · next hrejected =>
    refine Does.bind (does_clearJournal hheld (hclear (.inr hrejected)) env.removed) ?_
    intro _ w₂ hready
    exact does_pure hready
  refine Does.bind (does_findRecord e.accountId env.record) ?_
  intro found w₂ ⟨_, hw₂⟩
  have hheld : w₂.Held e := by
    subst hw₂
    exact ⟨hheld.ready, hheld.entry⟩
  cases found with
  | none => exact does_pure hheld.ready
  | some record =>
    dsimp only
    cases compareRecord e record with
    | conflict text => exact does_pure hheld.ready
    | rotated =>
      refine Does.bind (does_enterPhase hheld .finalized) ?_
      intro _ w₃ h₃
      exact does_pure h₃.held.ready
    | waiting => exact does_reconcileWaiting hheld env status

/-- A journal that is loaded parses, or nothing is journaled. -/
theorem does_loadJournal (hempty : w.loaded = false → w.loadError = none) (canOpen : Bool) :
    Does config w (loadJournal config canOpen) (fun ready w' => ready = true → w'.Ready) := by
  unfold loadJournal
  refine does_get_bind ?_
  split
  · next hloaded =>
    refine does_pure ?_
    intro hnone
    exact ⟨hloaded, Option.isNone_iff_eq_none.mp hnone⟩
  next hfresh =>
  have hfresh := Bool.eq_false_of_not_eq_true hfresh
  split
  · next hfile =>
    have hnone : config.hasJournalPath = false ∨ w.file = none := by
      by_cases hpath : config.hasJournalPath = true
      · rw [if_pos hpath] at hfile
        exact .inr hfile
      · exact .inl (Bool.eq_false_of_not_eq_true hpath)
    refine Does.bind (does_set (.loadsNothing hfresh hnone)) ?_
    intro _ w₁ hw₁
    subst hw₁
    exact does_pure fun _ => ⟨rfl, hempty hfresh⟩
  next bytes hfile =>
  have hfile : w.file = some bytes := by
    by_cases hpath : config.hasJournalPath = true
    · rwa [if_pos hpath] at hfile
    · rw [if_neg hpath] at hfile
      cases hfile
  split
  · refine Does.bind (does_set (.loadFails hfresh _)) ?_
    intro _ w₁ _
    exact does_pure fun h => Bool.noConfusion h
  split
  · refine Does.bind (does_set (.loadFails hfresh _)) ?_
    intro _ w₁ _
    exact does_pure fun h => Bool.noConfusion h
  · next entry hparse =>
    refine Does.bind (does_set (.loads hfresh hfile hparse)) ?_
    intro _ w₁ hw₁
    subst hw₁
    exact does_pure fun _ => ⟨rfl, hempty hfresh⟩

theorem journalOperation_eq_some {header : Hash256 → JournalHeader}
    (h : journalOperation header operation = some e) :
    serializeProtocolOperation operation = some e.operationBytes ∧ e.kind = (header e.opId).kind ∧
      e.nonce = (header e.opId).nonce ∧ e.accountId = (header e.opId).accountId := by
  unfold journalOperation at h
  split at h
  · next bytes opId hbytes hid =>
    cases h
    exact ⟨hbytes, rfl, rfl, rfl⟩
  · cases h

variable {networkBinding : Hash256} {keys : IdentityKeys} {accountId : AccountId}
  {record : IdentityRecord}

theorem rotationSigned_of_signRequest {request : IdentityRequest}
    (h : signRequest networkBinding keys accountId record request = some e) : RotationSigned e := by
  obtain ⟨digest, -, h⟩ := Option.bind_eq_some_iff.mp h
  obtain ⟨signature, -, h⟩ := Option.bind_eq_some_iff.mp h
  obtain ⟨operation, -, h⟩ := Option.bind_eq_some_iff.mp h
  intro hzero
  rw [(journalOperation_eq_some h).2.1] at hzero
  cases hkind : request.kind <;> rw [hkind] at hzero <;> cases hzero

theorem rotationSigned_of_signRotation {material : RotationMaterial}
    (h : signRotation networkBinding keys accountId record material = .ok e) : RotationSigned e := by
  unfold signRotation at h
  split at h
  · cases h
  split at h
  · cases h
  next hfresh =>
  push Not at hfresh
  split at h
  · next newRecoveryKey newAuthorizationKey newKemPackage hroot hauth hpackage =>
    split at h
    · cases h
    dsimp only at h
    split at h
    · cases h
    split at h
    · next oldRecoverySignature newRecoveryPop newAuthorizationPop hold hnew hpop =>
      cases hencode : journalOperation (fun opId =>
          { networkBinding, accountId, nonce := record.nonce, keyEpoch := record.keyEpoch + 1, kind := 0,
            payloadCommitment := opId, opId, operationSize := 0 }) (.identityRotate
          { accountId, newRecoveryKey, newAuthorizationKey, newKemPackage, nonce := record.nonce,
            keyEpoch := record.keyEpoch + 1, oldRecoverySignature, newRecoveryPop, newAuthorizationPop }) with
      | none =>
        rw [hencode] at h
        cases h
      | some entry =>
        rw [hencode] at h
        cases h
        obtain ⟨hwritten, -, hnonce, -⟩ := journalOperation_eq_some hencode
        intro _ rotate hrotate
        rw [(deserialize_serializeProtocolOperation hwritten).mpr trivial] at hrotate
        cases hrotate
        rw [hnonce]
        exact ⟨rfl, hfresh.1⟩
    · cases h
  · cases h

theorem does_saveNew (hidle : w.Idle) (hsigned : .signed e.core ∈ w.history) (fate : Fate) :
    Does config w (saveJournal config e fate) (fun saved w' => w'.Idle ∧ .signed e.core ∈ w'.history ∧
      (saved = true → canSave config e = true ∧ w'.file = some (encodeJournal e))) := by
  unfold saveJournal
  split
  · exact does_pure ⟨hidle, hsigned, fun h => Bool.noConfusion h⟩
  next hsave =>
  have hsave := eq_true_of_ne_false hsave
  cases fate with
  | lost =>
    refine Does.bind (does_modify (.tunes w.entry w.nextRelayRetry rfl)) ?_
    intro _ w' hw'
    subst hw'
    exact does_pure ⟨hidle, hsigned, fun h => Bool.noConfusion h⟩
  | done | stored =>
    refine Does.bind (does_modify (.journals hidle hsigned hsave)) ?_
    intro _ w' hw'
    subst hw'
    exact does_pure ⟨hidle, hsigned, fun _ => ⟨hsave, rfl⟩⟩

theorem does_journalAndSubmit (hidle : w.Idle) (hrotation : RotationSigned e) (saveNew : Fate)
    (env : SubmitEnvironment) (error : String) :
    Does config w (journalAndSubmit config e saveNew env error) (fun _ _ => True) := by
  unfold journalAndSubmit
  refine Does.bind (does_modify (.signs hidle hrotation)) ?_
  intro _ w₁ hw₁
  have hidle₁ : w₁.Idle := by
    subst hw₁
    exact hidle
  have hsigned : .signed e.core ∈ w₁.history := by
    subst hw₁
    exact List.mem_cons_self
  refine Does.bind (does_saveNew hidle₁ hsigned saveNew) ?_
  intro saved w₂ ⟨hidle₂, hsigned, hsaved⟩
  split
  · exact does_pure trivial
  next hne =>
  obtain ⟨hsave, hfile⟩ := hsaved (eq_true_of_ne_false hne)
  refine Does.bind (does_modify (.adopts hidle₂ hsigned hsave hfile)) ?_
  intro _ w₃ hw₃
  have hheld : w₃.Held e := by
    subst hw₃
    exact ⟨hidle₂.1, rfl⟩
  exact (does_submitExact hheld env).mono fun _ _ _ => trivial

theorem does_executeNew (hidle : w.Idle) (keys : IdentityKeys) (accountId : AccountId) (request : IdentityRequest)
    (env : ExecuteEnvironment) :
    Does config w (executeNew config keys accountId request env) (fun _ _ => True) := by
  unfold executeNew
  refine Does.bind (does_findRecord accountId env.record) ?_
  intro found w₁ ⟨_, hw₁⟩
  have hidle₁ : w₁.Idle := by
    subst hw₁
    exact hidle
  cases found with
  | none => exact does_pure trivial
  | some record =>
    dsimp only
    split
    · exact does_pure trivial
    split
    · exact does_pure trivial
    · next entry hsign =>
      exact does_journalAndSubmit hidle₁ (rotationSigned_of_signRequest hsign) env.saveNew env.submit _

theorem does_rotateNew (hidle : w.Idle) (keys : IdentityKeys) (accountId : AccountId)
    (material : RotationMaterial) (env : RotateEnvironment) :
    Does config w (rotateNew config keys accountId material env) (fun _ _ => True) := by
  unfold rotateNew
  refine Does.bind (does_findRecord accountId env.record) ?_
  intro found w₁ ⟨_, hw₁⟩
  have hidle₁ : w₁.Idle := by
    subst hw₁
    exact hidle
  cases found with
  | none => exact does_pure trivial
  | some record =>
    dsimp only
    split
    · exact does_pure trivial
    · next entry hsign =>
      exact does_journalAndSubmit hidle₁ (rotationSigned_of_signRotation hsign) env.saveNew env.submit _

theorem does_otherUnresolved (h : w.Held e) (same : Bool) (view : StatusView) :
    Does config w (otherUnresolved e same view) (fun _ w' => w'.Held e) := by
  unfold otherUnresolved
  split
  · exact does_pure h
  refine Does.bind (does_queryStatus view e.opId) ?_
  intro status w₁ ⟨hw₁, _⟩
  subst hw₁
  exact does_pure ⟨h.ready, h.entry⟩

theorem does_ready {α : Type} {refused : IdentityCoordinator → α} {rest : IdentityCoordinator → CoordinatorM α}
    (hempty : w.loaded = false → w.loadError = none) (canOpen : Bool)
    (hrest : ∀ w₁ : IdentityCoordinator, w₁.Ready → Does config w₁ (rest w₁) fun _ _ => True) :
    Does config w (do
      let ready ← loadJournal config canOpen
      let w ← get
      if ready = false then return refused w else rest w) (fun _ _ => True) := by
  refine Does.bind (does_loadJournal hempty canOpen) fun loaded w₁ hloaded => does_get_bind ?_
  split
  · exact does_pure trivial
  · next hne => exact hrest w₁ (hloaded (eq_true_of_ne_false hne))

/-- `Execute` does nothing but actions of the coordinator. -/
theorem does_execute (hempty : w.loaded = false → w.loadError = none) (keys : IdentityKeys)
    (request : IdentityRequest) (env : ExecuteEnvironment) :
    Does config w (execute config keys request env) (fun _ _ => True) := by
  unfold execute
  refine does_ready hempty env.canOpen fun w₁ hready => ?_
  split
  · exact does_pure trivial
  · next accountId haccount hnone => exact does_executeNew ⟨hready, hnone⟩ keys accountId request env
  next accountId entry haccount hentry =>
  refine Does.bind (does_otherUnresolved (.of_entry hready hentry) _ env.status) ?_
  intro blocked w₂ hheld
  split
  · exact does_pure trivial
  refine Does.bind (does_reconcile hheld env.reconcile) ?_
  intro previous w₃ hready₃
  refine does_get_bind ?_
  split
  · exact does_pure trivial
  split
  · exact does_pure trivial
  next hcleared =>
  exact does_executeNew ⟨hready₃, Option.not_isSome_iff_eq_none.mp hcleared⟩ keys accountId request env

theorem does_reconcileOwn (h : w.Held e) (env : ReconcileEnvironment) (accountId : AccountId) :
    Does config w (reconcileOwn config env e accountId) (fun _ w' => w'.Ready) := by
  unfold reconcileOwn
  split
  · refine Does.bind (does_reconcile h env) ?_
    intro _ w₁ hready
    exact does_pure hready
  · exact does_pure h.ready

theorem does_rotateIdentity (hempty : w.loaded = false → w.loadError = none) (keys : IdentityKeys)
    (material : RotationMaterial) (env : RotateEnvironment) :
    Does config w (rotateIdentity config keys material env) (fun _ _ => True) := by
  unfold rotateIdentity
  refine does_ready hempty env.canOpen fun w₁ hready => ?_
  split
  · exact does_pure trivial
  · next accountId haccount hnone => exact does_rotateNew ⟨hready, hnone⟩ keys accountId material env
  next accountId entry haccount hentry =>
  have hheld : w₁.Held entry := .of_entry hready hentry
  split
  · exact (does_reconcile hheld env.reconcile).mono fun _ _ _ => trivial
  refine Does.bind (does_reconcileOwn hheld env.reconcile accountId) ?_
  intro _ w₂ hready₂
  refine does_get_bind ?_
  split
  · exact does_pure trivial
  · next hnone => exact does_rotateNew ⟨hready₂, hnone⟩ keys accountId material env

theorem does_retryRelayIfDue (hempty : w.loaded = false → w.loadError = none) (env : RetryEnvironment) :
    Does config w (retryRelayIfDue config env) (fun _ _ => True) := by
  unfold retryRelayIfDue
  refine Does.bind (does_loadJournal hempty env.canOpen) ?_
  intro loaded w₁ hloaded
  refine does_get_bind ?_
  split
  · exact does_pure trivial
  next entry hentry =>
  split
  · exact does_pure trivial
  next hne =>
  push Not at hne
  have hheld : w₁.Held entry := .of_entry (hloaded (eq_true_of_ne_false hne.1)) hentry
  refine Does.bind (does_queryStatus env.status entry.opId) ?_
  intro status w₂ ⟨hw₂, _⟩
  have hheld₂ : w₂.Held entry := by
    subst hw₂
    exact ⟨hheld.ready, hheld.entry⟩
  split
  · exact does_pure trivial
  refine Does.bind (does_setRelayRetry hheld₂ _) ?_
  intro _ w₃ h₃
  split
  · exact does_pure trivial
  refine Does.bind (does_submitExact h₃.held env.submit) ?_
  intro _ w₄ _
  exact does_pure trivial

theorem does_completeIdentityRotation (hempty : w.loaded = false → w.loadError = none) (canOpen removed : Bool)
    (finalizedIdentity : IdentityRecord) :
    Does config w (completeIdentityRotation config canOpen removed finalizedIdentity) (fun _ _ => True) := by
  unfold completeIdentityRotation
  refine Does.bind (does_loadJournal hempty canOpen) ?_
  intro loaded w₁ hloaded
  refine does_get_bind ?_
  split
  · exact does_pure trivial
  next entry hentry =>
  split
  · exact does_pure trivial
  next hne =>
  push Not at hne
  have hheld : w₁.Held entry := .of_entry (hloaded (eq_true_of_ne_false hne.1)) hentry
  split
  · next rotate hrotate =>
    refine Does.bind (does_findRecord entry.accountId (some finalizedIdentity)) ?_
    intro _ w₂ ⟨_, hw₂⟩
    split
    · exact does_pure trivial
    next hmatches =>
    push Not at hmatches
    have hadvanced : .advanced entry.accountId (rotate.nonce + 1) ∈ w₂.history := by
      subst hw₂
      rw [← hmatches.2.2]
      exact List.mem_cons_self
    have hheld₂ : w₂.Held entry := by
      subst hw₂
      exact ⟨hheld.ready, hheld.entry⟩
    exact (does_clearJournal hheld₂ (.rotated rotate hne.2 hrotate hadvanced) removed).mono fun _ _ _ => trivial
  · exact does_pure trivial

theorem does_hasPendingIdentityRotation (hempty : w.loaded = false → w.loadError = none) (canOpen : Bool) :
    Does config w (hasPendingIdentityRotation config canOpen) (fun _ _ => True) := by
  unfold hasPendingIdentityRotation
  refine Does.bind (does_loadJournal hempty canOpen) ?_
  intro loaded w₁ _
  exact does_get_bind (does_pure trivial)

theorem does_settleRetry (v : IdentityCoordinator) (opId : Hash256) :
    Does config w (settleRetry v opId) (fun _ _ => True) :=
  (does_modify (.tunes w.entry _ rfl)).mono fun _ _ _ => trivial

theorem does_getStatus (hempty : w.loaded = false → w.loadError = none) (opId : Hash256)
    (env : GetStatusEnvironment) : Does config w (getStatus config opId env) (fun _ _ => True) := by
  unfold getStatus
  refine does_ready hempty env.canOpen fun w₁ hready => ?_
  refine Does.bind (does_queryStatus env.status opId) ?_
  intro status w₂ ⟨hw₂, _⟩
  split
  · refine Does.bind (does_settleRetry w₁ opId) ?_
    intro _ w₃ _
    exact does_pure trivial
  split
  · refine Does.bind (does_settleRetry w₁ opId) ?_
    intro _ w₃ _
    exact does_pure trivial
  split
  · next entry hfilter =>
    have hheld : w₂.Held entry := by
      subst hw₂
      exact .of_entry hready (Option.filter_eq_some_iff.mp hfilter).1
    exact (does_submitExact hheld env.submit).mono fun _ _ _ => trivial
  · split <;> exact does_pure trivial

end

end IdentityCoordinator

end Cybou

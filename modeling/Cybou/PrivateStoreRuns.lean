import Cybou.PrivateStore
import Mathlib.Data.List.Induction

/-! # Nested batches are nested transactions (`private_application_store.cpp`)

What a batch should do is said of the calls alone: every open batch has the changes
made since it was opened, an inner one that is committed gives them to the batch around
it, one that fails or is abandoned drops them.  `batchLevels` computes these lists from
a history of calls and answers.  `Agrees` relates them to the one shared map of the
code and to the copies in the batch objects, and is kept by every call.
-/

namespace Cybou

open Library

/-! ### Changes -/

/-- A change made in a batch, or a `Put` that failed there. -/
inductive StagedOp where
  | put (name value : Bytes)
  | erase (name : Bytes)
  | failed
deriving DecidableEq, Repr

def StagedOp.applyTo (changes : StagedChanges) : StagedOp → StagedChanges
  | .put name value => changes.set name (some value)
  | .erase name => changes.set name none
  | .failed => changes

def replay (ops : List StagedOp) : StagedChanges := ops.foldl StagedOp.applyTo ∅

def StagedOp.change? (name : Bytes) : StagedOp → Option (Option Bytes)
  | .put other value => if other = name then some (some value) else none
  | .erase other => if other = name then some none else none
  | .failed => none

def lastChange (ops : List StagedOp) (name : Bytes) : Option (Option Bytes) :=
  ops.reverse.findSome? (StagedOp.change? name)

/-- Whether a `Put` failed. -/
def anyFailed (ops : List StagedOp) : Bool := ops.any fun op => decide (op = .failed)

theorem replay_append (ops : List StagedOp) (op : StagedOp) :
    replay (ops ++ [op]) = op.applyTo (replay ops) := by
  rw [replay, List.foldl_append]
  rfl

theorem lastChange_append (ops : List StagedOp) (op : StagedOp) (name : Bytes) :
    lastChange (ops ++ [op]) name = (op.change? name).or (lastChange ops name) := by
  rw [lastChange, List.reverse_append]
  cases h : op.change? name with
  | none => simp [lastChange, h]
  | some change => simp [h]

theorem find?_replay (ops : List StagedOp) (name : Bytes) :
    (replay ops).find? name = lastChange ops name := by
  induction ops using List.reverseRecOn with
  | nil => rfl
  | append_singleton ops op ih =>
    rw [replay_append, lastChange_append, ← ih]
    cases op with
    | put other value =>
      by_cases h : other = name
      · simp [StagedOp.applyTo, StagedOp.change?, h]
      · simp [StagedOp.applyTo, StagedOp.change?, h, OrdMap.find?_set_of_ne _ _ (Ne.symm h)]
    | erase other =>
      by_cases h : other = name
      · simp [StagedOp.applyTo, StagedOp.change?, h]
      · simp [StagedOp.applyTo, StagedOp.change?, h, OrdMap.find?_set_of_ne _ _ (Ne.symm h)]
    | failed => simp [StagedOp.applyTo, StagedOp.change?]

/-! ### Open batches -/

/-- For each batch object that is alive, the newest first: the changes of an open batch,
    nothing for a finished one. -/
abbrev BatchLevels := List (Option (List StagedOp))

namespace BatchLevels

def ops : BatchLevels → List StagedOp
  | [] => []
  | none :: older => ops older
  | some changes :: older => ops older ++ changes

def anyOpen (levels : BatchLevels) : Bool := levels.any Option.isSome

def add (changes : List StagedOp) : BatchLevels → BatchLevels
  | [] => []
  | none :: older => none :: add changes older
  | some earlier :: older => some (earlier ++ changes) :: older

/-- Finish a batch; its changes go to the batch around it, or are dropped. -/
def finish (keep : Bool) : Nat → BatchLevels → BatchLevels
  | _, [] => []
  | 0, none :: older => none :: older
  | 0, some changes :: older => none :: if keep = true then add changes older else older
  | newer + 1, level :: older => level :: finish keep newer older

variable {levels older : BatchLevels} {changes : List StagedOp}

@[simp] theorem anyOpen_none : anyOpen (none :: older) = anyOpen older := by simp [anyOpen]

@[simp] theorem anyOpen_some : anyOpen (some changes :: older) = true := by simp [anyOpen]

@[simp] theorem anyOpen_add : anyOpen (add changes levels) = anyOpen levels := by
  induction levels with
  | nil => rfl
  | cons level older ih =>
    cases level with
    | none => rw [add, anyOpen_none, anyOpen_none, ih]
    | some earlier => rw [add, anyOpen_some, anyOpen_some]

theorem ops_add (h : anyOpen levels = true) : ops (add changes levels) = ops levels ++ changes := by
  induction levels with
  | nil => cases h
  | cons level older ih =>
    cases level with
    | none => exact ih (by rwa [anyOpen_none] at h)
    | some earlier => simp only [add, ops, List.append_assoc]

theorem ops_of_closed (h : anyOpen levels = false) : ops levels = [] := by
  induction levels with
  | nil => rfl
  | cons level older ih =>
    cases level with
    | none => exact ih (by rwa [anyOpen_none] at h)
    | some earlier => simp at h

/-- Batches that are finished do not show. -/
@[simp] theorem ops_finished (n : Nat) : ops (List.replicate n none ++ levels) = ops levels := by
  induction n with
  | zero => rfl
  | succ n ih => rw [List.replicate_succ, List.cons_append, ops, ih]

@[simp] theorem anyOpen_finished (n : Nat) : anyOpen (List.replicate n none ++ levels) = anyOpen levels := by
  induction n with
  | zero => rfl
  | succ n ih => rw [List.replicate_succ, List.cons_append, anyOpen_none, ih]

theorem finish_finished (keep : Bool) (n : Nat) :
    finish keep n (List.replicate n none ++ levels) = List.replicate n none ++ finish keep 0 levels := by
  induction n with
  | zero => rfl
  | succ n ih => rw [List.replicate_succ, List.cons_append, finish, ih, List.cons_append]

theorem anyOpen_finish_of_closed (keep : Bool) (n : Nat) (h : anyOpen levels = false) :
    anyOpen (finish keep n levels) = false := by
  induction levels generalizing n with
  | nil => cases n <;> rfl
  | cons level older ih =>
    cases level with
    | some changes => simp at h
    | none =>
      cases n with
      | zero => exact h
      | succ n =>
        rw [finish, anyOpen_none]
        exact ih n (by rwa [anyOpen_none] at h)

def after (levels : BatchLevels) : StoreCall × StoreAnswer → BatchLevels
  | (.construct, _) => some [] :: levels
  | (.commit newer _, answer) => finish (decide (answer = .flag true)) newer levels
  | (.destroy, _) => levels.tail
  | (.put name value _, answer) =>
    add [if answer = .flag true then .put name value else .failed] levels
  | (.get _ _, _) => levels
  | (.has _ _, _) => levels
  | (.erase name _, _) => add [.erase name] levels

end BatchLevels

def batchLevels (history : List (StoreCall × StoreAnswer)) : BatchLevels :=
  history.foldl BatchLevels.after []

theorem batchLevels_append (history : List (StoreCall × StoreAnswer)) (event : StoreCall × StoreAnswer) :
    batchLevels (history ++ [event]) = (batchLevels history).after event := by
  rw [batchLevels, List.foldl_append]
  rfl

/-! ### The objects agree with the open batches -/

/-- The batch objects that are alive, and the changes they stand for. -/
inductive Matches : List BatchObject → BatchLevels → Prop where
  | nil : Matches [] []
  | finished {object : BatchObject} {objects : List BatchObject} {older : BatchLevels}
      (done : object.batch.done = true)
      (outermost : object.batch.outermost = true → older.anyOpen = false)
      (rest : Matches objects older) : Matches (object :: objects) (none :: older)
  | unfinished {object : BatchObject} {objects : List BatchObject} {older : BatchLevels}
      {changes : List StagedOp} (done : object.batch.done = false)
      (outermost : object.batch.outermost = !older.anyOpen)
      (savepoint : older.anyOpen = true → object.batch.savepoint = replay older.ops ∧
        object.batch.savepointFailed = anyFailed older.ops)
      (rest : Matches objects older) : Matches (object :: objects) (some changes :: older)

variable {objects : List BatchObject} {levels : BatchLevels}

theorem Matches.add (h : Matches objects levels)
    (changes : List StagedOp) : Matches objects (levels.add changes) := by
  induction h with
  | nil => exact .nil
  | finished done outermost rest ih =>
    exact .finished done (by rwa [BatchLevels.anyOpen_add]) ih
  | unfinished done outermost savepoint rest ih => exact .unfinished done outermost savepoint rest

variable {object : BatchObject}

theorem Matches.finish (h : Matches objects levels)
    {newer : Nat} {object' : BatchObject} (hobject : objects[newer]? = some object)
    (hnewer : ∀ other ∈ objects.take newer, other.batch.done = true)
    (hdone : object'.batch.done = true) (houtermost : object'.batch.outermost = object.batch.outermost)
    (keep : Bool) : Matches (objects.set newer object') (levels.finish keep newer) := by
  induction h generalizing newer with
  | nil => cases hobject
  | @finished first objects older done outermost rest ih =>
    cases newer with
    | zero =>
      cases hobject
      exact .finished hdone (by rwa [houtermost]) rest
    | succ n =>
      refine .finished done (fun hfirst => ?_) (ih hobject fun other hother => ?_)
      · exact BatchLevels.anyOpen_finish_of_closed keep n (outermost hfirst)
      · exact hnewer other (List.mem_cons_of_mem _ hother)
  | @unfinished first objects older changes done outermost savepoint rest ih =>
    cases newer with
    | zero =>
      cases hobject
      rw [BatchLevels.finish]
      refine .finished hdone (fun hobject' => ?_) ?_
      · rw [houtermost, outermost, Bool.not_eq_true'] at hobject'
        split
        · rwa [BatchLevels.anyOpen_add]
        · exact hobject'
      · split
        · exact rest.add changes
        · exact rest
    | succ n =>
      have hfirst := hnewer first List.mem_cons_self
      rw [done] at hfirst
      cases hfirst

theorem Matches.split (h : Matches objects levels) {newer : Nat} (hobject : objects[newer]? = some object)
    (hnewer : ∀ other ∈ objects.take newer, other.batch.done = true) :
    ∃ level older, levels = List.replicate newer none ++ level :: older ∧
      Matches (object :: objects.drop (newer + 1)) (level :: older) := by
  induction newer generalizing objects levels with
  | zero =>
    cases h with
    | nil => cases hobject
    | finished done outermost rest =>
      cases hobject
      exact ⟨none, _, rfl, .finished done outermost rest⟩
    | unfinished done outermost savepoint rest =>
      cases hobject
      exact ⟨some _, _, rfl, .unfinished done outermost savepoint rest⟩
  | succ n ih =>
    cases h with
    | nil => cases hobject
    | finished done outermost rest =>
      obtain ⟨level, older, hlevels, hmatches⟩ :=
        ih rest hobject fun other hother => hnewer other (List.mem_cons_of_mem _ hother)
      exact ⟨level, older, by rw [hlevels, List.replicate_succ, List.cons_append], hmatches⟩
    | @unfinished first objects older changes done outermost savepoint rest =>
      have hfirst := hnewer first List.mem_cons_self
      rw [done] at hfirst
      cases hfirst

theorem Matches.anyOpen_of_mem (h : Matches objects levels) (hmem : object ∈ objects)
    (hdone : object.batch.done = false) : levels.anyOpen = true := by
  induction h with
  | nil => cases hmem
  | finished done outermost rest ih =>
    rw [BatchLevels.anyOpen_none]
    rcases List.mem_cons.mp hmem with rfl | hmem
    · rw [done] at hdone
      cases hdone
    · exact ih hmem
  | unfinished done outermost savepoint rest ih => exact BatchLevels.anyOpen_some

section

variable [RecordCipher]

structure Agrees (s : StoreSession) (levels : BatchLevels) : Prop where
  objects : Matches s.batches levels
  staged : s.store.staged = if levels.anyOpen = true then some (replay levels.ops) else none
  failed : levels.anyOpen = true → s.store.stagedFailed = anyFailed levels.ops

omit [RecordCipher] in
theorem Agrees.add {s : StoreSession} {levels : BatchLevels} (h : Agrees s levels) (op : StagedOp)
    {store : SealedStore} (hclosed : levels.anyOpen = false → store.staged = none)
    (hstaged : levels.anyOpen = true → store.staged = some (op.applyTo (replay levels.ops)))
    (hfailed : levels.anyOpen = true →
      store.stagedFailed = (s.store.stagedFailed || decide (op = .failed))) :
    Agrees { s with store } (levels.add [op]) := by
  by_cases hopen : levels.anyOpen = true
  · refine ⟨h.objects.add [op], ?_, fun _ => ?_⟩
    · rw [BatchLevels.anyOpen_add, if_pos hopen, BatchLevels.ops_add hopen, replay_append]
      exact hstaged hopen
    · rw [BatchLevels.ops_add hopen, anyFailed, List.any_append, ← anyFailed, ← h.failed hopen,
        List.any_cons, List.any_nil, Bool.or_false]
      exact hfailed hopen
  · rw [Bool.not_eq_true] at hopen
    refine ⟨h.objects.add [op], ?_, ?_⟩
    · rw [BatchLevels.anyOpen_add, hopen]
      exact hclosed hopen
    · intro habsurd
      rw [BatchLevels.anyOpen_add, hopen] at habsurd
      cases habsurd

omit [RecordCipher] in
theorem Agrees.staged_of_open {s : StoreSession} {levels : BatchLevels} (h : Agrees s levels)
    (hopen : levels.anyOpen = true) : s.store.staged = some (replay levels.ops) := by
  rw [h.staged, if_pos hopen]

omit [RecordCipher] in
theorem Agrees.staged_of_closed {s : StoreSession} {levels : BatchLevels} (h : Agrees s levels)
    (hclosed : levels.anyOpen = false) : s.store.staged = none := by
  rw [h.staged, hclosed]
  rfl

variable {s s' : StoreSession} {levels : BatchLevels}

omit [RecordCipher] in
theorem Agrees.construct (h : Agrees s levels) :
    Agrees { store := s.store.construct.2
             batches := ⟨s.constructed, s.store.construct.1⟩ :: s.batches
             constructed := s.constructed + 1 } (some [] :: levels) := by
  by_cases hopen : levels.anyOpen = true
  · have hstaged := h.staged_of_open hopen
    have hconstruct : s.store.construct =
        ({ outermost := false, done := false, savepoint := replay levels.ops
           savepointFailed := s.store.stagedFailed }, s.store) := by
      rw [SealedStore.construct, hstaged]
    rw [hconstruct]
    refine ⟨.unfinished rfl ?_ (fun _ => ⟨rfl, h.failed hopen⟩) h.objects, ?_, fun _ => ?_⟩
    · rw [hopen]
      rfl
    · rw [BatchLevels.anyOpen_some, if_pos rfl, BatchLevels.ops, List.append_nil]
      exact hstaged
    · rw [BatchLevels.ops, List.append_nil]
      exact h.failed hopen
  · rw [Bool.not_eq_true] at hopen
    have hconstruct : s.store.construct =
        ({ outermost := true, done := false, savepoint := ∅, savepointFailed := false },
          { s.store with staged := some ∅, stagedFailed := false }) := by
      rw [SealedStore.construct, h.staged_of_closed hopen]
    rw [hconstruct]
    refine ⟨.unfinished rfl ?_ (fun habsurd => ?_) h.objects, ?_, fun _ => ?_⟩
    · rw [hopen]
      rfl
    · rw [hopen] at habsurd
      cases habsurd
    · rw [BatchLevels.anyOpen_some, if_pos rfl, BatchLevels.ops, BatchLevels.ops_of_closed hopen]
      rfl
    · rw [BatchLevels.ops, BatchLevels.ops_of_closed hopen]
      rfl

variable {object : BatchObject}

omit [RecordCipher] in
/-- A destructor takes the level of its batch off. -/
theorem Agrees.destroy {objects : List BatchObject} (h : Agrees s levels)
    (hbatches : s.batches = object :: objects) :
    Agrees { s with store := s.store.destroy object.batch, batches := objects } levels.tail := by
  have hmatches := h.objects
  rw [hbatches] at hmatches
  unfold SealedStore.destroy
  cases hmatches with
  | @finished _ _ older done outermost rest =>
    rw [if_neg, if_neg]
    · have hstaged := h.staged
      have hfailed := h.failed
      rw [BatchLevels.anyOpen_none] at hstaged hfailed
      exact ⟨rest, hstaged, hfailed⟩
    · rintro ⟨-, hundone, -⟩
      rw [done] at hundone
      cases hundone
    · rintro ⟨hfirst, hsome⟩
      rw [h.staged_of_closed (by rw [BatchLevels.anyOpen_none]; exact outermost hfirst)] at hsome
      cases hsome
  | @unfinished _ _ older changes done outermost savepoint rest =>
    have hstaged := h.staged_of_open BatchLevels.anyOpen_some
    by_cases hopen : older.anyOpen = true
    · rw [hopen] at outermost
      obtain ⟨hsavepoint, hsavepointFailed⟩ := savepoint hopen
      rw [if_neg, if_pos ⟨outermost, done, by rw [hstaged]; rfl⟩]
      · refine ⟨rest, ?_, fun _ => hsavepointFailed⟩
        change s.store.staged.map (fun _ => object.batch.savepoint) = _
        rw [hstaged, hsavepoint, List.tail_cons, if_pos hopen, Option.map_some]
      · rintro ⟨hfirst, -⟩
        rw [outermost] at hfirst
        cases hfirst
    · rw [Bool.not_eq_true] at hopen
      rw [hopen] at outermost
      rw [if_pos ⟨outermost, by rw [hstaged]; rfl⟩]
      refine ⟨rest, ?_, fun habsurd => ?_⟩
      · rw [List.tail_cons, hopen]
        rfl
      · rw [List.tail_cons, hopen] at habsurd
        cases habsurd

theorem writeBatch_staged (store : SealedStore) (changes : List (Bytes × Option Bytes))
    (env : StoreEnv) : (store.writeBatch changes env).2.staged = store.staged := by
  unfold SealedStore.writeBatch
  split
  · rfl
  · split
    · rfl
    · rfl

theorem commit_outermost {store : SealedStore} {batch : PrivateApplicationStore.Batch} {env : StoreEnv}
    (hdone : batch.done = false) (houtermost : batch.outermost = true) :
    store.commit batch env =
      if store.stagedFailed = true then
        (false, { batch with done := true }, { store with staged := none })
      else
        let written := SealedStore.writeBatch { store with staged := none }
          (store.staged.getD ∅).entries env
        (written.1, { batch with done := true }, written.2) := by
  unfold SealedStore.commit
  rw [if_neg (by rw [hdone]; decide)]
  dsimp only
  rw [if_neg (by rw [houtermost]; decide)]

theorem commit_inner {store : SealedStore} {batch : PrivateApplicationStore.Batch} {env : StoreEnv}
    (hdone : batch.done = false) (houtermost : batch.outermost = false) :
    store.commit batch env =
      if store.stagedFailed = false then (true, { batch with done := true }, store)
      else (false, { batch with done := true, savepoint := ∅ }, store.rollBack batch) := by
  unfold SealedStore.commit
  rw [if_neg (by rw [hdone]; decide)]
  dsimp only
  rw [if_pos houtermost]
  rfl

theorem commit_done (store : SealedStore) (batch : PrivateApplicationStore.Batch) (env : StoreEnv) :
    (store.commit batch env).2.1.done = true ∧
      (store.commit batch env).2.1.outermost = batch.outermost := by
  unfold SealedStore.commit
  by_cases hdone : batch.done = true
  · rw [if_pos hdone]
    exact ⟨hdone, rfl⟩
  · rw [if_neg hdone]
    dsimp only
    by_cases hinner : batch.outermost = false
    · rw [if_pos hinner]
      split
      · exact ⟨rfl, rfl⟩
      · exact ⟨rfl, rfl⟩
    · rw [if_neg hinner]
      split
      · exact ⟨rfl, rfl⟩
      · exact ⟨rfl, rfl⟩

variable {draw newer : Nat}

/-- A commit of an inner batch hands its changes on, one of the outermost writes them. -/
theorem Agrees.commit (h : Agrees s levels) (env : StoreEnv) (hobject : s.batches[newer]? = some object)
    (hnewer : ∀ other ∈ s.batches.take newer, other.batch.done = true) :
    Agrees { s with
        store := (s.store.commit object.batch env).2.2
        batches := s.batches.set newer { object with batch := (s.store.commit object.batch env).2.1 } }
      (levels.finish (s.store.commit object.batch env).1 newer) := by
  have hobjects : Matches
      (s.batches.set newer { object with batch := (s.store.commit object.batch env).2.1 })
      (levels.finish (s.store.commit object.batch env).1 newer) :=
    h.objects.finish hobject hnewer (commit_done _ _ _).1 (commit_done _ _ _).2 _
  obtain ⟨level, older, hlevels, hmatches⟩ := h.objects.split hobject hnewer
  have hstaged := h.staged
  have hfailed := h.failed
  rw [hlevels, BatchLevels.anyOpen_finished, BatchLevels.ops_finished] at hstaged hfailed
  cases hmatches with
  | finished done outermost rest =>
    have hcommit : s.store.commit object.batch env = (false, object.batch, s.store) := by
      unfold SealedStore.commit
      rw [if_pos done]
    rw [hcommit] at hobjects ⊢
    refine ⟨hobjects, ?_, ?_⟩
    all_goals rw [hlevels, BatchLevels.finish_finished, BatchLevels.anyOpen_finished,
      BatchLevels.ops_finished]
    · exact hstaged
    · exact hfailed
  | @unfinished _ _ _ changes done outermost savepoint rest =>
    rw [BatchLevels.anyOpen_some, if_pos rfl] at hstaged
    have hflag := hfailed BatchLevels.anyOpen_some
    by_cases hopen : BatchLevels.anyOpen older = true
    · rw [hopen] at outermost
      rw [commit_inner done outermost] at hobjects ⊢
      by_cases hfail : s.store.stagedFailed = false
      · rw [if_pos hfail] at hobjects ⊢
        refine ⟨hobjects, ?_, ?_⟩
        all_goals rw [hlevels, BatchLevels.finish_finished, BatchLevels.anyOpen_finished,
          BatchLevels.ops_finished, BatchLevels.finish, if_pos rfl, BatchLevels.anyOpen_none,
          BatchLevels.anyOpen_add, BatchLevels.ops, BatchLevels.ops_add hopen]
        · rw [if_pos hopen]
          exact hstaged
        · exact fun _ => hflag
      · obtain ⟨hsavepoint, hsavepointFailed⟩ := savepoint hopen
        rw [if_neg hfail] at hobjects ⊢
        refine ⟨hobjects, ?_, ?_⟩
        all_goals rw [hlevels, BatchLevels.finish_finished, BatchLevels.anyOpen_finished,
          BatchLevels.ops_finished, BatchLevels.finish, if_neg Bool.false_ne_true, BatchLevels.anyOpen_none,
          BatchLevels.ops]
        · change s.store.staged.map (fun _ => object.batch.savepoint) = _
          rw [if_pos hopen, hstaged, hsavepoint, Option.map_some]
        · exact fun _ => hsavepointFailed
    · rw [Bool.not_eq_true] at hopen
      rw [hopen] at outermost
      have hclosed : ∀ keep, (levels.finish keep newer).anyOpen = false := by
        intro keep
        rw [hlevels, BatchLevels.finish_finished, BatchLevels.anyOpen_finished, BatchLevels.finish,
          BatchLevels.anyOpen_none]
        split
        · rwa [BatchLevels.anyOpen_add]
        · exact hopen
      have hnone : (s.store.commit object.batch env).2.2.staged = none := by
        rw [commit_outermost done outermost]
        split
        · rfl
        · exact writeBatch_staged _ _ _
      refine ⟨hobjects, ?_, fun habsurd => ?_⟩
      · rw [hclosed]
        exact hnone
      · rw [hclosed] at habsurd
        cases habsurd

theorem put_staged {store : SealedStore} (h : store.staged = none) (name plaintext : Bytes)
    (env : StoreEnv) : (store.put name plaintext env).2.staged = none := by
  unfold SealedStore.put
  rw [h]
  dsimp only
  split
  · exact h
  · split
    · exact h
    · split
      · exact h
      · rfl

theorem erase_staged {store : SealedStore} (h : store.staged = none) (name : Bytes)
    (env : StoreEnv) : (store.erase name env).2.staged = none := by
  unfold SealedStore.erase
  rw [h]
  dsimp only
  split
  · exact h
  · split
    · exact h
    · rfl

theorem Agrees.put (h : Agrees s levels) (name plaintext : Bytes) (env : StoreEnv) :
    Agrees { s with store := (s.store.put name plaintext env).2 }
      (levels.add [if StoreAnswer.flag (s.store.put name plaintext env).1 = .flag true then
        .put name plaintext else .failed]) := by
  apply h.add
  · exact fun hclosed => put_staged (h.staged_of_closed hclosed) name plaintext env
  · intro hopen
    unfold SealedStore.put
    rw [h.staged_of_open hopen]
    dsimp only
    split
    · rfl
    · rfl
  · intro hopen
    unfold SealedStore.put
    rw [h.staged_of_open hopen]
    dsimp only
    split
    · simp
    · simp

theorem Agrees.erase (h : Agrees s levels) (name : Bytes) (env : StoreEnv) :
    Agrees { s with store := (s.store.erase name env).2 } (levels.add [.erase name]) := by
  apply h.add
  · exact fun hclosed => erase_staged (h.staged_of_closed hclosed) name env
  · intro hopen
    unfold SealedStore.erase
    rw [h.staged_of_open hopen]
    rfl
  · intro hopen
    unfold SealedStore.erase
    rw [h.staged_of_open hopen]
    simp

/-- The step: the store goes on agreeing with the nested transactions. -/
theorem Agrees.step {call : StoreCall} {answer : StoreAnswer} (h : Agrees s levels)
    (hstep : s.step call = some (answer, s')) : Agrees s' (levels.after (call, answer)) := by
  cases call with
  | construct =>
    cases hstep
    exact h.construct
  | commit newer env =>
    simp only [StoreSession.step] at hstep
    split at hstep
    · cases hstep
    · next object hobject =>
      split at hstep
      · cases hstep
      · next hall =>
        cases hstep
        rw [Bool.not_eq_false, List.all_eq_true] at hall
        have hcommit := h.commit env hobject hall
        have hanswer : decide (StoreAnswer.flag (s.store.commit object.batch env).1 = .flag true) =
            (s.store.commit object.batch env).1 := by
          cases (s.store.commit object.batch env).1 <;> rfl
        rw [BatchLevels.after, hanswer]
        exact hcommit
  | destroy =>
    simp only [StoreSession.step] at hstep
    split at hstep
    · cases hstep
    · next object objects hbatches =>
      cases hstep
      exact h.destroy hbatches
  | put name plaintext env =>
    cases hstep
    exact h.put name plaintext env
  | get name unlocked =>
    cases hstep
    exact h
  | has name unlocked =>
    cases hstep
    exact h
  | erase name env =>
    cases hstep
    exact h.erase name env

/-- A session in which no batch is alive. -/
structure Idle (s : StoreSession) : Prop where
  batches : s.batches = []
  staged : s.store.staged = none

variable {start : StoreSession} {history : List (StoreCall × StoreAnswer)}

theorem agrees_of_run
    (hidle : Idle start) (h : StoreSession.Run start history s) : Agrees s (batchLevels history) := by
  induction h with
  | refl =>
    refine ⟨?_, hidle.staged, fun habsurd => ?_⟩
    · rw [hidle.batches]
      exact .nil
    · cases habsurd
  | step before hstep ih =>
    rw [batchLevels_append]
    exact ih.step hstep

/-! ### Reading in a batch -/

omit [RecordCipher] in
theorem Agrees.find?_staged (h : Agrees s levels) (name : Bytes) :
    (s.store.staged.bind fun staged => staged.find? name) = lastChange levels.ops name := by
  by_cases hopen : levels.anyOpen = true
  · rw [h.staged_of_open hopen, Option.bind_some, find?_replay]
  · rw [Bool.not_eq_true] at hopen
    rw [h.staged_of_closed hopen, BatchLevels.ops_of_closed hopen]
    rfl

/-! ### Going back to a savepoint -/

omit [RecordCipher] in
theorem Agrees.staged_isSome (h : Agrees s levels) (hmem : object ∈ s.batches)
    (hdone : object.batch.done = false) : s.store.staged.isSome = true := by
  rw [h.staged_of_open (h.objects.anyOpen_of_mem hmem hdone)]
  rfl

variable {answer : StoreAnswer}

/-- An object that is not finished is one there was before, unchanged, or a new one. -/
theorem unfinished_of_step {call : StoreCall}
    (hstep : s.step call = some (answer, s')) (hmem : object ∈ s'.batches) (hdone : object.batch.done = false) :
    object ∈ s.batches ∨ (object = ⟨s.constructed, s.store.construct.1⟩ ∧ call = .construct) := by
  cases call with
  | construct =>
    cases hstep
    rcases List.mem_cons.mp hmem with rfl | hmem
    · exact .inr ⟨rfl, rfl⟩
    · exact .inl hmem
  | commit newer env =>
    simp only [StoreSession.step] at hstep
    split at hstep
    · cases hstep
    · next committed hcommitted =>
      split at hstep
      · cases hstep
      · cases hstep
        rcases List.mem_or_eq_of_mem_set hmem with hmem | rfl
        · exact .inl hmem
        · rw [(commit_done _ _ _).1] at hdone
          cases hdone
  | destroy =>
    simp only [StoreSession.step] at hstep
    split at hstep
    · cases hstep
    · next first objects hbatches =>
      cases hstep
      rw [hbatches]
      exact .inl (List.mem_cons_of_mem _ hmem)
  | put name plaintext env =>
    cases hstep
    exact .inl hmem
  | get name unlocked =>
    cases hstep
    exact .inl hmem
  | has name unlocked =>
    cases hstep
    exact .inl hmem
  | erase name env =>
    cases hstep
    exact .inl hmem

theorem constructed_of_step {call : StoreCall} (hstep : s.step call = some (answer, s')) :
    s'.constructed = s.constructed ∨ (s'.constructed = s.constructed + 1 ∧ call = .construct) := by
  cases call with
  | construct =>
    cases hstep
    exact .inr ⟨rfl, rfl⟩
  | commit newer env =>
    simp only [StoreSession.step] at hstep
    split at hstep
    · cases hstep
    · split at hstep
      · cases hstep
      · cases hstep
        exact .inl rfl
  | destroy =>
    simp only [StoreSession.step] at hstep
    split at hstep
    · cases hstep
    · cases hstep
      exact .inl rfl
  | put name plaintext env =>
    cases hstep
    exact .inl rfl
  | get name unlocked =>
    cases hstep
    exact .inl rfl
  | has name unlocked =>
    cases hstep
    exact .inl rfl
  | erase name env =>
    cases hstep
    exact .inl rfl

/-- The numbers of the open objects are below the count of constructions. -/
def Numbered (s : StoreSession) : Prop :=
  ∀ object ∈ s.batches, object.batch.done = false → object.serial < s.constructed

theorem Numbered.step {call : StoreCall} {answer : StoreAnswer} (h : Numbered s)
    (hstep : s.step call = some (answer, s')) : Numbered s' := by
  intro object hmem hdone
  have hconstructed := constructed_of_step hstep
  rcases unfinished_of_step hstep hmem hdone with hold | ⟨rfl, rfl⟩
  · have hlt := h object hold hdone
    omega
  · cases hstep
    exact Nat.lt_succ_self _

theorem numbered_of_run (hidle : Idle start) (h : StoreSession.Run start history s) : Numbered s := by
  induction h with
  | refl =>
    intro object hmem
    rw [hidle.batches] at hmem
    cases hmem
  | step before hstep ih => exact ih.step hstep

theorem unfinished_of_run (h : StoreSession.Run s history s') (hmem : object ∈ s'.batches)
    (hdone : object.batch.done = false) :
    s.constructed ≤ s'.constructed ∧ (object ∈ s.batches ∨ s.constructed ≤ object.serial) := by
  have hcount : ∀ {history s'}, StoreSession.Run s history s' → s.constructed ≤ s'.constructed := by
    intro history s' hrun
    induction hrun with
    | refl => exact Nat.le_refl _
    | step before hstep ih =>
      have hconstructed := constructed_of_step hstep
      omega
  refine ⟨hcount h, ?_⟩
  induction h with
  | refl => exact .inl hmem
  | step before hstep ih =>
    rcases unfinished_of_step hstep hmem hdone with hold | ⟨rfl, rfl⟩
    · exact ih hold
    · exact .inr (hcount before)

/-- An open batch is abandoned: destroyed, or its `Commit` fails. -/
def Abandons (s : StoreSession) (object : BatchObject) (s' : StoreSession) : Prop :=
  (∃ older, s.batches = object :: older ∧ s.step .destroy = some (.nothing, s')) ∨
  ∃ newer env, s.batches[newer]? = some object ∧ s.step (.commit newer env) = some (.flag false, s')

theorem rollBack_of_abandons (hdone : object.batch.done = false)
    (hinner : object.batch.outermost = false) (hstaged : s.store.staged.isSome = true)
    (h : Abandons s object s') : s'.store = s.store.rollBack object.batch := by
  rcases h with ⟨older, hbatches, hstep⟩ | ⟨newer, env, hobject, hstep⟩
  · simp only [StoreSession.step, hbatches] at hstep
    cases hstep
    unfold SealedStore.destroy
    rw [if_neg, if_pos ⟨hinner, hdone, hstaged⟩]
    rw [hinner]
    rintro ⟨habsurd, -⟩
    cases habsurd
  · simp only [StoreSession.step, hobject] at hstep
    split at hstep
    · cases hstep
    · rw [commit_inner hdone hinner] at hstep
      by_cases hfail : s.store.stagedFailed = false
      · rw [if_pos hfail] at hstep
        cases hstep
      · rw [if_neg hfail] at hstep
        cases hstep
        rfl

/-- An inner batch that is abandoned leaves the map and the flag as it found them. -/
theorem restored_of_abandons {s₁ s₂ : StoreSession} {before during : List (StoreCall × StoreAnswer)}
    (hidle : Idle start) (hbefore : StoreSession.Run start before s) (hinside : s.store.staged.isSome = true)
    (hopen : s.step .construct = some (answer, s₁)) (hduring : StoreSession.Run s₁ during s₂)
    (hmem : object ∈ s₂.batches) (hserial : object.serial = s.constructed)
    (hdone : object.batch.done = false) (habandon : Abandons s₂ object s') :
    s'.store.staged = s.store.staged ∧ s'.store.stagedFailed = s.store.stagedFailed := by
  obtain ⟨staged, hstaged⟩ := Option.isSome_iff_exists.mp hinside
  have hbatch : s.store.construct.1 =
      { outermost := false, done := false, savepoint := staged
        savepointFailed := s.store.stagedFailed } := by
    rw [SealedStore.construct, hstaged]
  -- the object is the one that was opened, and has not changed since
  have hobject : object = ⟨s.constructed, s.store.construct.1⟩ := by
    have hnumbered := numbered_of_run hidle hbefore
    have hnew : s₁.constructed = s.constructed + 1 ∧
        s₁.batches = ⟨s.constructed, s.store.construct.1⟩ :: s.batches := by
      cases hopen
      exact ⟨rfl, rfl⟩
    rcases (unfinished_of_run hduring hmem hdone).2 with hold | hlate
    · rw [hnew.2] at hold
      rcases List.mem_cons.mp hold with hnewest | hold
      · exact hnewest
      · have hlt := hnumbered object hold hdone
        omega
    · omega
  have hrun : ∀ {history t}, StoreSession.Run s₁ history t →
      StoreSession.Run start ((before ++ [(.construct, answer)]) ++ history) t := by
    intro history t h
    induction h with
    | refl =>
      rw [List.append_nil]
      exact .step hbefore hopen
    | step previous hstep ih =>
      rw [← List.append_assoc]
      exact .step ih hstep
  have hsome := (agrees_of_run hidle (hrun hduring)).staged_isSome hmem hdone
  obtain ⟨current, hcurrent⟩ := Option.isSome_iff_exists.mp hsome
  have hinner : object.batch.outermost = false := by
    rw [hobject, hbatch]
  rw [rollBack_of_abandons hdone hinner hsome habandon, hobject, hbatch]
  refine ⟨?_, rfl⟩
  rw [SealedStore.rollBack, hcurrent, hstaged]
  rfl

/-! ### What the outermost batch makes durable -/

variable {name : Bytes} {account : AccountId} {key : FixedBytes 32}

theorem decryptRecord_encryptRecord {nonce : Option (FixedBytes 12)} {plaintext encoded : Bytes}
    (h : encryptRecord account key nonce name plaintext = some encoded) :
    decryptRecord account key name encoded = some plaintext ∧ encoded.length ≤ MAX_COMPACT_SIZE := by
  unfold encryptRecord at h
  rw [Option.ite_none_left_eq_some] at h
  rcases h with ⟨hsize, h⟩
  rcases Option.map_eq_some_iff.mp h with ⟨nonce, -, rfl⟩
  have hlength : (nonce.1 ++ ChunkCipher.encrypt key nonce (associatedData account name) plaintext).length =
      12 + (plaintext.length + CHACHA20_POLY1305_TAG_SIZE) := by
    rw [List.length_append, nonce.2, ChunkCipher.length_encrypt]
  have hnonce : CHACHA20_POLY1305_NONCE_SIZE = 12 := rfl
  have hmax : 12 + (MAX_VALUE_BYTES + CHACHA20_POLY1305_TAG_SIZE) ≤ MAX_COMPACT_SIZE := by decide
  have hread := (Reader.fixed_exact 12
    (nonce.1 ++ ChunkCipher.encrypt key nonce (associatedData account name) plaintext) nonce _).mpr
      ⟨trivial, rfl⟩
  refine ⟨?_, by omega⟩
  unfold decryptRecord
  rw [if_neg (by omega), hread, Option.bind_eq_bind, Option.bind_some]
  exact ChunkCipher.decrypt_encrypt _ _ _ _

def Separate (account : AccountId) (key : FixedBytes 32) (names : Bytes → Prop) (name : Bytes) : Prop :=
  ∀ other, names other → RecordCipher.hmacSha256 key (associatedData account other) =
    RecordCipher.hmacSha256 key (associatedData account name) → other = name

theorem Separate.record_ne {names : Bytes → Prop}
    {other record : Bytes} (h : Separate account key names name) (hother : names other)
    (hne : other ≠ name) (hrecord : recordKey account key name = some record) :
    recordKey account key other ≠ some record := by
  intro hsame
  unfold recordKey at hrecord hsame
  rw [Option.ite_none_left_eq_some] at hrecord hsame
  have heq := List.append_cancel_left (Option.some.inj (hsame.2.trans hrecord.2.symm))
  exact hne (h other hother (Subtype.ext (hex_injective heq)))

def RowHolds (account : AccountId) (key : FixedBytes 32) (name : Bytes) (row : Option Bytes) :
    Option Bytes → Prop
  | none => row = none
  | some value => ∃ encoded, row = some (encodeLocalBytes encoded) ∧
      encoded.length ≤ MAX_COMPACT_SIZE ∧ decryptRecord account key name encoded = some value

variable {store : SealedStore} {env : StoreEnv}

variable {changes : List (Bytes × Option Bytes)} {edits : List (Edit Bytes Bytes)}

theorem batchEdits_cons {value : Option Bytes}
    (h : store.batchEdits env draw ((name, value) :: changes) = some edits) :
    ∃ record edit rest draw', edits = edit :: rest ∧ recordKey store.account store.key name = some record ∧
      edit.key = record ∧ RowHolds store.account store.key name edit.value value ∧
      store.batchEdits env draw' changes = some rest := by
  rw [SealedStore.batchEdits] at h
  rcases Option.bind_eq_some_iff.mp h with ⟨record, hrecord, h⟩
  cases value with
  | none =>
    rcases Option.bind_eq_some_iff.mp h with ⟨rest, hrest, h⟩
    cases h
    exact ⟨record, _, rest, draw, rfl, hrecord, rfl, rfl, hrest⟩
  | some plaintext =>
    rcases Option.bind_eq_some_iff.mp h with ⟨encoded, hencoded, h⟩
    rcases Option.bind_eq_some_iff.mp h with ⟨rest, hrest, h⟩
    cases h
    obtain ⟨hdecrypt, hlength⟩ := decryptRecord_encryptRecord hencoded
    exact ⟨record, _, rest, draw + 1, rfl, hrecord, rfl, ⟨encoded, rfl, hlength, hdecrypt⟩, hrest⟩

/-- What the batch leaves under a name: the value it wrote, or what was there. -/
theorem apply_batchEdits {record : Bytes} (rows : Store Bytes Bytes)
    (h : store.batchEdits env draw changes = some edits) (hnodup : (changes.map Prod.fst).Nodup)
    (hrecord : recordKey store.account store.key name = some record)
    (hseparate : Separate store.account store.key (· ∈ changes.map Prod.fst) name) :
    (∀ value, (name, value) ∈ changes →
      RowHolds store.account store.key name (rows.apply edits record) value) ∧
    (name ∉ changes.map Prod.fst → rows.apply edits record = rows record) := by
  induction changes generalizing draw edits rows with
  | nil =>
    rw [SealedStore.batchEdits] at h
    cases h
    exact ⟨fun value hmem => absurd hmem List.not_mem_nil, fun _ => rfl⟩
  | cons change changes ih =>
    rcases change with ⟨other, value⟩
    obtain ⟨record', edit, rest, draw', rfl, hrecord', hkey, hholds, hrest⟩ := batchEdits_cons h
    rw [List.map_cons, List.nodup_cons] at hnodup
    have hseparate' : Separate store.account store.key (· ∈ changes.map Prod.fst) name :=
      fun other hother => hseparate other (List.mem_cons_of_mem _ hother)
    have hnext := ih (Function.update rows edit.key edit.value) hrest hnodup.2 hseparate'
    rw [Store.apply_cons]
    by_cases hsame : other = name
    · subst hsame
      have hrecordEq : record' = record := Option.some.inj (hrecord'.symm.trans hrecord)
      refine ⟨fun value' hmem => ?_, fun hnot => absurd List.mem_cons_self hnot⟩
      rcases List.mem_cons.mp hmem with heq | hlater
      · cases heq
        rw [hnext.2 hnodup.1, hkey, hrecordEq, Function.update_self]
        exact hholds
      · exact absurd (List.mem_map_of_mem hlater) hnodup.1
    · have hne : record ≠ edit.key := by
        rw [hkey]
        rintro rfl
        exact hseparate.record_ne List.mem_cons_self hsame hrecord hrecord'
      refine ⟨fun value' hmem => hnext.1 value' ?_, fun hnot => ?_⟩
      · rcases List.mem_cons.mp hmem with heq | hlater
        · cases heq
          exact absurd rfl hsame
        · exact hlater
      · rw [hnext.2 fun hlater => hnot (List.mem_cons_of_mem _ hlater), Function.update_of_ne hne]

theorem recordKey_of_batchEdits (h : store.batchEdits env draw changes = some edits)
    (hmem : name ∈ changes.map Prod.fst) :
    ∃ record, recordKey store.account store.key name = some record := by
  induction changes generalizing draw edits with
  | nil => cases hmem
  | cons change changes ih =>
    rcases change with ⟨other, value⟩
    obtain ⟨record, edit, rest, draw', rfl, hrecord, -, -, hrest⟩ := batchEdits_cons h
    rcases List.mem_cons.mp hmem with rfl | hmem
    · exact ⟨record, hrecord⟩
    · exact ih hrest hmem

/-- The value and the row of a name after the changes. -/
def Shows (before after : SealedStore) (name : Bytes) (change : Option (Option Bytes)) : Prop :=
  after.storedValue name = change.getD (before.storedValue name) ∧
    after.storedRow name = (change.map Option.isSome).getD (before.storedRow name)

theorem shows_of_batchEdits {changes : StagedChanges} (h : store.batchEdits env 0 changes.entries = some edits)
    (hseparate : Separate store.account store.key (fun other => (changes.find? other).isSome = true) name) :
    Shows store { store with rows := store.rows.apply edits } name (changes.find? name) := by
  have hnames : ∀ other, other ∈ changes.entries.map Prod.fst → (changes.find? other).isSome = true := by
    intro other hother
    rcases List.mem_map.mp hother with ⟨⟨_, value⟩, hmem, rfl⟩
    rw [OrdMap.mem_entries_iff.mp hmem]
    rfl
  unfold Shows SealedStore.storedValue SealedStore.storedRow
  cases hrecord : recordKey store.account store.key name with
  | none =>
    have hnone : changes.find? name = none := by
      by_contra hsome
      obtain ⟨value, hvalue⟩ := Option.ne_none_iff_exists'.mp hsome
      obtain ⟨record, hrecord'⟩ := recordKey_of_batchEdits h
        (List.mem_map_of_mem (f := Prod.fst) (OrdMap.mem_entries_iff.mpr hvalue))
      rw [hrecord] at hrecord'
      cases hrecord'
    rw [hnone]
    exact ⟨rfl, rfl⟩
  | some record =>
    have hrows := apply_batchEdits store.rows h changes.nodup_keys hrecord
      fun other hother => hseparate other (hnames other hother)
    simp only [Option.bind_eq_bind, Option.bind_some]
    cases hchange : changes.find? name with
    | none =>
      have hnot : name ∉ changes.entries.map Prod.fst := by
        intro hmem
        have hsome := hnames name hmem
        rw [hchange] at hsome
        cases hsome
      rw [readBytes, hrows.2 hnot]
      exact ⟨rfl, rfl⟩
    | some value =>
      have hholds := hrows.1 value (OrdMap.mem_entries_iff.mpr hchange)
      cases value with
      | none =>
        have hrow : store.rows.apply edits record = none := hholds
        rw [readBytes, hrow]
        exact ⟨rfl, rfl⟩
      | some value =>
        rcases hholds with ⟨encoded, hrow, hlength, hdecrypt⟩
        rw [readBytes, hrow, Option.bind_some, decodeLocalBytes_encodeLocalBytes, if_pos hlength,
          Option.bind_some]
        exact ⟨hdecrypt, rfl⟩

theorem writeBatch_atomic (store : SealedStore) (changes : List (Bytes × Option Bytes))
    (env : StoreEnv) :
    ((store.writeBatch changes env).1 = false ∧ (store.writeBatch changes env).2 = store) ∨
    ∃ edits, store.batchEdits env 0 changes = some edits ∧
      (store.writeBatch changes env).2 = { store with rows := store.rows.apply edits } := by
  unfold SealedStore.writeBatch
  by_cases hlocked : env.unlocked = false
  · rw [if_pos hlocked]
    exact .inl ⟨rfl, rfl⟩
  rw [if_neg hlocked]
  cases hedits : store.batchEdits env 0 changes with
  | none => exact .inl ⟨rfl, rfl⟩
  | some edits =>
    cases hfate : env.fate with
    | done => exact .inr ⟨edits, rfl, rfl⟩
    | lost => exact .inl ⟨rfl, rfl⟩
    | stored => exact .inr ⟨edits, rfl, rfl⟩

theorem commit_of_step {ok : Bool} (hobject : s.batches[newer]? = some object)
    (hstep : s.step (.commit newer env) = some (.flag ok, s')) :
    ok = (s.store.commit object.batch env).1 ∧ s'.store = (s.store.commit object.batch env).2.2 := by
  simp only [StoreSession.step, hobject] at hstep
  split at hstep
  · cases hstep
  · cases hstep
    exact ⟨rfl, rfl⟩

theorem Agrees.commit_outermost (h : Agrees s levels) {ok : Bool}
    (hobject : s.batches[newer]? = some object) (hdone : object.batch.done = false)
    (houtermost : object.batch.outermost = true) (hstep : s.step (.commit newer env) = some (.flag ok, s')) :
    (anyFailed levels.ops = true → ok = false ∧ s'.store.rows = s.store.rows) ∧
    ((ok = false ∧ s'.store.rows = s.store.rows) ∨ ∀ name, Separate s.store.account s.store.key
      (fun other => (lastChange levels.ops other).isSome = true) name →
        Shows s.store s'.store name (lastChange levels.ops name)) := by
  obtain ⟨rfl, hstore⟩ := commit_of_step hobject hstep
  rw [hstore, Cybou.commit_outermost hdone houtermost]
  have hopen := h.objects.anyOpen_of_mem (List.mem_of_getElem? hobject) hdone
  have hflag := h.failed hopen
  by_cases hfailed : s.store.stagedFailed = true
  · rw [if_pos hfailed]
    exact ⟨fun _ => ⟨rfl, rfl⟩, .inl ⟨rfl, rfl⟩⟩
  · rw [if_neg hfailed]
    rw [hflag] at hfailed
    refine ⟨fun habsurd => absurd habsurd hfailed, ?_⟩
    dsimp only
    have hchanges : s.store.staged.getD ∅ = replay levels.ops := by
      rw [h.staged_of_open hopen, Option.getD_some]
    rw [hchanges]
    rcases writeBatch_atomic { s.store with staged := none } (replay levels.ops).entries env with
      ⟨hok, hsame⟩ | ⟨edits, hedits, hwritten⟩
    · rw [hok, hsame]
      exact .inl ⟨rfl, rfl⟩
    · refine .inr fun name hseparate => ?_
      rw [hwritten, ← find?_replay]
      refine shows_of_batchEdits hedits fun other hother => hseparate other ?_
      dsimp only at hother ⊢
      rwa [← find?_replay]

/-- **Nested batches are nested transactions.**  In a batch, `Get` and `Has` show the latest
    change of a name, and what is stored where there is none.  An inner batch that is
    abandoned leaves the staged changes and the failure flag as they were when it was
    opened.  The outermost `Commit` fails if a `Put` failed that was not taken back, and it
    makes the changes that are left durable, or none of them. -/
theorem batches_are_transactions {start : StoreSession} {history : List (StoreCall × StoreAnswer)}
    (hidle : Idle start) (hrun : StoreSession.Run start history s) :
    (∀ name unlocked, s.store.get name unlocked =
      match lastChange (batchLevels history).ops name with
      | some change => change
      | none => if unlocked = false then none else s.store.storedValue name) ∧
    (∀ name unlocked, s.store.has name unlocked =
      match lastChange (batchLevels history).ops name with
      | some change => change.isSome
      | none => if unlocked = false then false else s.store.storedRow name) ∧
    (∀ answer s₁ during s₂ object s₃, s.store.staged.isSome = true →
      s.step .construct = some (answer, s₁) → StoreSession.Run s₁ during s₂ → object ∈ s₂.batches →
      object.serial = s.constructed → object.batch.done = false → Abandons s₂ object s₃ →
      s₃.store.staged = s.store.staged ∧ s₃.store.stagedFailed = s.store.stagedFailed) ∧
    (∀ newer object env ok s', s.batches[newer]? = some object → object.batch.done = false →
      object.batch.outermost = true → s.step (.commit newer env) = some (.flag ok, s') →
      (anyFailed (batchLevels history).ops = true → ok = false ∧ s'.store.rows = s.store.rows) ∧
      ((ok = false ∧ s'.store.rows = s.store.rows) ∨ ∀ name, Separate s.store.account s.store.key
        (fun other => (lastChange (batchLevels history).ops other).isSome = true) name →
          Shows s.store s'.store name (lastChange (batchLevels history).ops name))) := by
  have hagrees := agrees_of_run hidle hrun
  refine ⟨fun name unlocked => ?_, fun name unlocked => ?_, ?_, ?_⟩
  · have hget : s.store.get name unlocked = match s.store.staged.bind fun staged => staged.find? name with
        | some change => change
        | none => if unlocked = false then none else s.store.storedValue name := rfl
    rw [hget, hagrees.find?_staged]
  · have hhas : s.store.has name unlocked = match s.store.staged.bind fun staged => staged.find? name with
        | some change => change.isSome
        | none => if unlocked = false then false else s.store.storedRow name := rfl
    rw [hhas, hagrees.find?_staged]
  · intro answer s₁ during s₂ object s₃ hinside hopen hduring hmem hserial hdone habandon
    exact restored_of_abandons hidle hrun hinside hopen hduring hmem hserial hdone habandon
  · intro newer object env ok s' hobject hdone houtermost hstep
    exact hagrees.commit_outermost hobject hdone houtermost hstep

end

section

attribute [local instance] RecordCipher.sample

def emptySession : StoreSession where
  store :=
    { account := Hash256.ZERO, key := FixedBytes.zero 32, rows := fun _ => none, staged := none
      stagedFailed := false }
  batches := []
  constructed := 0

/-- An unlocked keystore and a disk that writes. -/
def sampleStoreEnv : StoreEnv where
  unlocked := true
  nonce _ := some (FixedBytes.zero 12)
  fate := .done

/-- A change in the outer batch, and one in an inner batch that is abandoned. -/
def abandonedHistory : List (StoreCall × StoreAnswer) :=
  [(.construct, .nothing), (.put [97] [1] sampleStoreEnv, .flag true), (.construct, .nothing),
    (.put [98] [2] sampleStoreEnv, .flag true), (.destroy, .nothing)]

theorem exists_abandonedRun : ∃ s, StoreSession.Run emptySession abandonedHistory s := by
  refine ⟨_, @StoreSession.Run.step _ _ [_, _, _, _] _ _ _ _ (@StoreSession.Run.step _ _ [_, _, _] _ _ _ _
    (@StoreSession.Run.step _ _ [_, _] _ _ _ _ (@StoreSession.Run.step _ _ [_] _ _ _ _
      (@StoreSession.Run.step _ _ [] _ _ _ _ .refl rfl) rfl) rfl) rfl) rfl⟩

theorem batches_are_transactions_abandoned : ∃ s,
    StoreSession.Run emptySession abandonedHistory s ∧ s.store.get [97] true = some [1] ∧
      s.store.get [98] false = none := by
  obtain ⟨s, hrun⟩ := exists_abandonedRun
  have hreads := (batches_are_transactions ⟨rfl, rfl⟩ hrun).1
  have hfirst : lastChange (batchLevels abandonedHistory).ops [97] = some (some [1]) := by decide
  have hsecond : lastChange (batchLevels abandonedHistory).ops [98] = none := by decide
  refine ⟨s, hrun, ?_, ?_⟩
  · rw [hreads, hfirst]
  · rw [hreads, hsecond]
    rfl

end

end Cybou

import Cybou.PrivateStore
import Cybou.Library.Proc

/-! # Rows of the application stores, and calls that change them in batches

The services see `PrivateApplicationStore` as rows under names.  A name is a fixed prefix
and what follows it; no prefix starts another, so distinct keys have distinct names.
Code inside a `Batch` is a `Staging` call on the staged rows: reads see them, a refused
`Put` marks the batch, an inner batch that is not committed takes its changes back.
`transact` is a whole outermost batch: what `batches_are_transactions` says of the store
itself is its definition.
-/

namespace Cybou

open Library

/-! ### Names -/

inductive KeyKind where
  | accessible | mail | file | fileStar | fileDesired | fileDesiredJob | bridge
  | scan | unavailable | mailIndex | filesIndex | bridgeIndex | recoveredEpochs
  | ownPublications | storageRecoveryIndexReady
  | draft | draftIndex | draftSend | draftSendContent
  | outboxJob | outboxStatus | outboxIndex | outboxActive | outboxSequence
deriving DecidableEq, Repr

namespace KeyKind

def tag : KeyKind → Bytes
  | accessible => ascii "app/pub/"
  | mail => ascii "mail/msg/"
  | file => ascii "files/item/"
  | fileStar => ascii "files/starred/"
  | fileDesired => ascii "files/desired/"
  | fileDesiredJob => ascii "files/desired-job/"
  | bridge => ascii "recovery/bridge/"
  | scan => ascii "app/scan-height"
  | unavailable => ascii "app/unavailable"
  | mailIndex => ascii "mail/index"
  | filesIndex => ascii "files/index"
  | bridgeIndex => ascii "recovery/index"
  | recoveredEpochs => ascii "recovery/recovered-epochs"
  | ownPublications => ascii "storage/owned-publications"
  | storageRecoveryIndexReady => ascii "storage/recovery-index-ready"
  | draft => ascii "mail/draft/"
  | draftIndex => ascii "mail/drafts"
  | draftSend => ascii "mail/draft-send/"
  | draftSendContent => ascii "mail/draft-send-content/"
  | outboxJob => ascii "outbox/job/"
  | outboxStatus => ascii "outbox/status/"
  | outboxIndex => ascii "outbox/index"
  | outboxActive => ascii "outbox/active"
  | outboxSequence => ascii "outbox/sequence"

def all : List KeyKind :=
  [accessible, mail, file, fileStar, fileDesired, fileDesiredJob, bridge, scan, unavailable, mailIndex,
    filesIndex, bridgeIndex, recoveredEpochs, ownPublications, storageRecoveryIndexReady, draft,
    draftIndex, draftSend, draftSendContent, outboxJob, outboxStatus, outboxIndex, outboxActive,
    outboxSequence]

theorem mem_all (kind : KeyKind) : kind ∈ all := by
  cases kind <;> decide

theorem tag_prefix {kind kind' : KeyKind} (h : kind.tag <+: kind'.tag) : kind = kind' := by
  have hall : ∀ kind ∈ all, ∀ kind' ∈ all, kind.tag.isPrefixOf kind'.tag = true → kind = kind' := by
    decide
  exact hall kind (mem_all _) kind' (mem_all _) (List.isPrefixOf_iff_prefix.mpr h)

end KeyKind

structure ApplicationKey where
  kind : KeyKind
  rest : Bytes
deriving DecidableEq

namespace ApplicationKey

def name (key : ApplicationKey) : Bytes := key.kind.tag ++ key.rest

theorem name_injective : Function.Injective name := by
  intro key key' h
  have hprefix : key.kind.tag <+: key'.name := ⟨key.rest, h⟩
  have hprefix' : key'.kind.tag <+: key'.name := ⟨key'.rest, rfl⟩
  have hkind : key.kind = key'.kind := by
    rcases List.prefix_or_prefix_of_prefix hprefix hprefix' with hle | hle
    · exact KeyKind.tag_prefix hle
    · exact (KeyKind.tag_prefix hle).symm
  rcases key with ⟨kind, rest⟩
  rcases key' with ⟨kind', rest'⟩
  dsimp only at hkind
  subst hkind
  exact congrArg _ (List.append_cancel_left h)

def only (kind : KeyKind) : ApplicationKey := ⟨kind, []⟩

def ofId (kind : KeyKind) (id : FixedBytes 32) : ApplicationKey := ⟨kind, hex id.1⟩

theorem ofId_injective (kind : KeyKind) : Function.Injective (ofId kind) := by
  intro id id' h
  exact Subtype.ext (hex_injective (congrArg ApplicationKey.rest h))

theorem ne_of_kind {key key' : ApplicationKey} (h : key.kind ≠ key'.kind) : key ≠ key' :=
  fun heq => h (congrArg ApplicationKey.kind heq)

theorem only_ne {kind : KeyKind} {key : ApplicationKey} (h : kind ≠ key.kind) : only kind ≠ key :=
  ne_of_kind h

end ApplicationKey

abbrev ApplicationRows := Store ApplicationKey Bytes

/-- Whether `RecordKey` takes the name of a key. -/
def ApplicationKey.usable (key : ApplicationKey) : Bool := PrivateApplicationStore.usable key.name

theorem ApplicationKey.usable_of_short {key : ApplicationKey} (h : key.rest.length ≤ 64) : key.usable = true := by
  have hall : ∀ kind ∈ KeyKind.all,
      0 < kind.tag.length ∧ kind.tag.length ≤ 64 ∧ kind.tag.take 1 ≠ CHECK_NAME.take 1 := by
    decide
  obtain ⟨hpos, hle, hfirst⟩ := hall key.kind (KeyKind.mem_all _)
  refine usable_of_length hpos hfirst ?_
  rw [List.length_append, MAX_NAME_BYTES]
  omega

theorem ApplicationKey.usable_only (kind : KeyKind) : (ApplicationKey.only kind).usable = true :=
  usable_of_short (Nat.zero_le _)

theorem ApplicationKey.usable_ofId (kind : KeyKind) (id : FixedBytes 32) :
    (ApplicationKey.ofId kind id).usable = true := by
  refine usable_of_short ?_
  rw [ofId, length_hex, id.2]

/-- The rows that `Get` and `Has` show. -/
def visible (unlocked : Bool) (rows : ApplicationRows) : ApplicationRows := fun key =>
  if unlocked = true ∧ key.usable = true then rows key else none

theorem visible_of_usable {key : ApplicationKey} (h : key.usable = true) (rows : ApplicationRows) :
    visible true rows key = rows key := if_pos ⟨rfl, h⟩

/-! ### Batches -/

/-- `std::runtime_error`. -/
structure RuntimeError where
  what : String
deriving DecidableEq, Repr

structure StagedRows where
  rows : ApplicationRows
  failed : Bool
  unlocked : Bool

abbrev Staging := Proc RuntimeError StagedRows

def StagedRows.takes (s : StagedRows) (key : ApplicationKey) (value : Bytes) : Bool :=
  s.unlocked && key.usable && decide (value.length ≤ MAX_VALUE_BYTES)

/-- `Get`. -/
def getRow (key : ApplicationKey) : Staging (Option Bytes) := do
  return (← get).rows key

/-- `Put`. -/
def putRow (key : ApplicationKey) (value : Bytes) : Staging Bool := do
  let s ← get
  if s.takes key value = false then
    set { s with failed := true }
    return false
  set { s with rows := Function.update s.rows key (some value) }
  return true

def eraseRow (key : ApplicationKey) : Staging Bool := do
  let s ← get
  set { s with rows := Function.update s.rows key none }
  return true

/-- A `Batch` inside another one; `body` returns whether `Commit` is reached. -/
def innerBatch (body : Staging Bool) : Staging Bool := fun s =>
  match body s with
  | .error e _ => .error e s
  | .ok false _ => .ok false s
  | .ok true s' => if s'.failed = true then .ok false s else .ok true s'

def StagedRows.opened (unlocked : Bool) (rows : ApplicationRows) : StagedRows where
  rows := visible unlocked rows
  failed := false
  unlocked

def StagedRows.over (s : StagedRows) (rows : ApplicationRows) : ApplicationRows := fun key =>
  if key.usable = true then s.rows key else rows key

/-- An outermost `Batch`; `body` returns whether `Commit` is reached. -/
def transact (unlocked : Bool) (fate : Fate) (rows : ApplicationRows) (body : Staging Bool) :
    Except RuntimeError Bool × ApplicationRows :=
  match body (.opened unlocked rows) with
  | .error e _ => (.error e, rows)
  | .ok false _ => (.ok false, rows)
  | .ok true s =>
    if s.failed = true ∨ unlocked = false then (.ok false, rows)
    else (.ok (decide (fate = .done)), if fate = .lost then rows else s.over rows)

/-- `Put` outside a batch. -/
def putAlone (unlocked : Bool) (fate : Fate) (rows : ApplicationRows) (key : ApplicationKey) (value : Bytes) :
    Bool × ApplicationRows :=
  if (StagedRows.opened unlocked rows).takes key value = false then (false, rows)
  else (decide (fate = .done), rows.write [.put key value] fate)

/-! ### Rules -/

section

variable {α : Type} {key : ApplicationKey} {value : Bytes} {s : StagedRows}
  {E : RuntimeError → StagedRows → Prop}

def StagedRows.with (s : StagedRows) (key : ApplicationKey) (value : Option Bytes) : StagedRows :=
  { s with rows := Function.update s.rows key value }

@[simp] theorem StagedRows.with_failed (value : Option Bytes) : (s.with key value).failed = s.failed := rfl

@[simp] theorem StagedRows.with_unlocked (value : Option Bytes) : (s.with key value).unlocked = s.unlocked := rfl

@[simp] theorem StagedRows.with_same (value : Option Bytes) : (s.with key value).rows key = value :=
  Function.update_self ..

theorem StagedRows.with_other {key' : ApplicationKey} {value : Option Bytes} (h : key' ≠ key) :
    (s.with key value).rows key' = s.rows key' :=
  Function.update_of_ne h ..

theorem wp_getRow_bind {f : Option Bytes → Staging α} {Q : α → StagedRows → Prop} :
    Proc.wp (getRow key >>= f) Q E s ↔ Proc.wp (f (s.rows key)) Q E s := Iff.rfl

theorem wp_putRow {Q : Bool → StagedRows → Prop}
    (htaken : s.takes key value = true → Q true (s.with key (some value)))
    (hrefused : s.takes key value = false → Q false { s with failed := true }) :
    Proc.wp (putRow key value) Q E s := by
  rw [putRow, Proc.wp_get_bind]
  cases h : s.takes key value with
  | false =>
    rw [if_pos rfl]
    exact hrefused h
  | true =>
    rw [if_neg Bool.noConfusion]
    exact htaken h

theorem wp_eraseRow {Q : Bool → StagedRows → Prop} (h : Q true (s.with key none)) :
    Proc.wp (eraseRow key) Q E s := h

theorem wp_innerBatch {body : Staging Bool} {Q : Bool → StagedRows → Prop}
    (hbody : Proc.wp body (fun ok s' => ok = true → s'.failed = false → Q true s')
      (fun e _ => E e s) s) (hrestored : Q false s) :
    Proc.wp (innerBatch body) Q E s := by
  unfold Proc.wp at hbody ⊢
  unfold innerBatch
  cases hrun : body s with
  | error e s' =>
    rw [hrun] at hbody
    exact hbody
  | ok ok s' =>
    rw [hrun] at hbody
    cases ok with
    | false => exact hrestored
    | true =>
      dsimp only at hbody ⊢
      by_cases hfailed : s'.failed = true
      · rw [if_pos hfailed]
        exact hrestored
      · rw [if_neg hfailed]
        exact hbody rfl (Bool.not_eq_true _ ▸ hfailed)

theorem transact_cases (unlocked : Bool) (fate : Fate) (rows : ApplicationRows) (body : Staging Bool) :
    ((transact unlocked fate rows body).2 = rows ∧ (transact unlocked fate rows body).1 ≠ .ok true) ∨
    ∃ s, body (.opened unlocked rows) = .ok true s ∧ s.failed = false ∧ unlocked = true ∧ fate ≠ .lost ∧
      transact unlocked fate rows body = (.ok (decide (fate = .done)), s.over rows) := by
  unfold transact
  cases hrun : body (.opened unlocked rows) with
  | error e s => exact .inl ⟨rfl, nofun⟩
  | ok ok s =>
    cases ok with
    | false => exact .inl ⟨rfl, nofun⟩
    | true =>
      dsimp only
      by_cases hrefused : s.failed = true ∨ unlocked = false
      · rw [if_pos hrefused]
        exact .inl ⟨rfl, nofun⟩
      · rw [if_neg hrefused]
        rw [not_or, Bool.not_eq_true, Bool.not_eq_false] at hrefused
        cases fate with
        | done => exact .inr ⟨s, rfl, hrefused.1, hrefused.2, nofun, rfl⟩
        | stored => exact .inr ⟨s, rfl, hrefused.1, hrefused.2, nofun, rfl⟩
        | lost => exact .inl ⟨rfl, nofun⟩

theorem visible_over (s : StagedRows) (rows : ApplicationRows) :
    visible true (s.over rows) = visible true s.rows := by
  funext key
  rw [visible, visible, StagedRows.over]
  by_cases hkey : key.usable = true
  · rw [if_pos hkey]
  · rw [if_neg fun h => hkey h.2, if_neg fun h => hkey h.2]

end

end Cybou

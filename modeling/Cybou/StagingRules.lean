import Cybou.ApplicationRecords

/-! # Rules for code inside a batch of the application stores

`Frames` is the frame rule: rows of the kinds that a call does not write are as before.
`Completes` says what holds where the code goes on, which is only after calls that
returned `true`; `transact_completes` brings it to the rows that the batch writes.
-/

namespace Cybou

open Library

/-! ### Calls that leave rows alone -/

section

variable {α β : Type} {kept : KeyKind → Bool}

/-- The call leaves the rows of these kinds alone. -/
def Frames (kept : KeyKind → Bool) (x : Staging α) : Prop :=
  ∀ s, Proc.wp x (fun _ s' => ∀ key, kept key.kind = true → s'.rows key = s.rows key) (fun _ _ => True) s

theorem Frames.pure (a : α) : Frames kept (pure a : Staging α) := fun _ _ _ => rfl

theorem Frames.bind {x : Staging α} {f : α → Staging β} (hx : Frames kept x) (hf : ∀ a, Frames kept (f a)) :
    Frames kept (x >>= f) := by
  intro s
  rw [Proc.wp_bind]
  refine Proc.wp_mono (hx s) (fun a s' hsame => ?_) fun _ _ _ => trivial
  refine Proc.wp_mono (hf a s') (fun b s'' hsame' key hkey => ?_) fun _ _ _ => trivial
  rw [hsame' key hkey, hsame key hkey]

theorem Frames.get : Frames kept (get : Staging StagedRows) := fun _ _ _ => rfl

theorem Frames.getRow (key : ApplicationKey) : Frames kept (getRow key) := fun _ _ _ => rfl

variable {key : ApplicationKey}

theorem with_frames {s : StagedRows} (value : Option Bytes) (h : kept key.kind = false) :
    ∀ key', kept key'.kind = true → (s.with key value).rows key' = s.rows key' := by
  intro key' hkey
  refine StagedRows.with_other fun heq => ?_
  rw [heq, h] at hkey
  cases hkey

theorem Frames.putRow (value : Bytes) (h : kept key.kind = false) :
    Frames kept (putRow key value) :=
  fun _ => wp_putRow (fun _ => with_frames _ h) fun _ _ _ => rfl

theorem Frames.eraseRow (h : kept key.kind = false) : Frames kept (eraseRow key) :=
  fun _ => wp_eraseRow (with_frames _ h)

theorem Frames.innerBatch {body : Staging Bool} (h : Frames kept body) : Frames kept (innerBatch body) := by
  intro s
  refine wp_innerBatch (Proc.wp_mono (h s) (fun ok s' hsame _ _ => hsame) fun _ _ _ => trivial) ?_
  exact fun key _ => rfl

theorem Frames.ite {c : Prop} [Decidable c] {x y : Staging α} (hx : Frames kept x) (hy : Frames kept y) :
    Frames kept (if c then x else y) := by
  split
  · exact hx
  · exact hy

theorem Frames.addId {kind : KeyKind} (id : FixedBytes 32) (h : kept kind = false) : Frames kept (addId kind id) := by
  refine (Frames.getRow _).bind fun encoded => ?_
  exact (Frames.pure true).ite (Frames.putRow _ h)

theorem Frames.saveFile (record : FileRecord) (desired : Bool)
    (hfile : kept (fileKey desired record.item.itemId).kind = false) (hindex : kept .filesIndex = false) :
    Frames kept (saveFile record desired) := by
  unfold Cybou.saveFile
  cases fileRow record with
  | none => exact Frames.pure false
  | some encoded =>
    refine (Frames.putRow _ hfile).bind fun ok => ?_
    exact (Frames.pure false).ite (Frames.addId _ hindex)

theorem Frames.saveMail (record : MailRecord) (hmail : kept .mail = false) (hindex : kept .mailIndex = false) :
    Frames kept (saveMail record) := by
  unfold Cybou.saveMail
  cases mailRow record with
  | none => exact Frames.pure false
  | some encoded =>
    have hput : Frames kept (Cybou.putRow (.ofId .mail record.message.messageId) encoded) := Frames.putRow _ hmail
    refine hput.bind fun ok => ?_
    exact (Frames.pure false).ite (Frames.addId _ hindex)

end

/-! ### Calls that complete -/

/-- If the call returns `true`, it ends in `P`. -/
def Completes (x : Staging Bool) (P : StagedRows → Prop) (s : StagedRows) : Prop :=
  Proc.wp x (fun ok s' => ok = true → P s') (fun _ _ => True) s

section

variable {x y : Staging Bool} {P Q : StagedRows → Prop} {s : StagedRows}

theorem Completes.mono (h : Completes x P s) (hPQ : ∀ s', P s' → Q s') : Completes x Q s :=
  Proc.wp_mono h (fun _ _ hP hok => hPQ _ (hP hok)) fun _ _ _ => trivial

theorem Completes.next (hx : Completes x P s) (hy : ∀ s', P s' → Completes y Q s') :
    Completes (x >>= fun ok => if ok = false then pure false else y) Q s := by
  rw [Completes, Proc.wp_bind]
  refine Proc.wp_mono hx (fun ok s' hP => ?_) fun _ _ _ => trivial
  cases ok with
  | false => exact fun habsurd => Bool.noConfusion habsurd
  | true => exact hy s' (hP rfl)

theorem Completes.and (hP : Completes x P s) (hQ : Completes x Q s) : Completes x (fun s' => P s' ∧ Q s') s := by
  unfold Completes Proc.wp at hP hQ ⊢
  cases hrun : x s with
  | error e s' => trivial
  | ok ok s' =>
    rw [hrun] at hP hQ
    exact fun hok => ⟨hP hok, hQ hok⟩

theorem Completes.refused : Completes (pure false) P s := fun habsurd => Bool.noConfusion habsurd

variable {key : ApplicationKey} {value : Bytes}

theorem Completes.putRow
    (h : s.takes key value = true → P (s.with key (some value))) : Completes (putRow key value) P s :=
  wp_putRow (fun htaken _ => h htaken) fun _ habsurd => Bool.noConfusion habsurd

theorem Frames.completes {kept : KeyKind → Bool} (h : Frames kept x)
    (hP : ∀ s', (∀ key, kept key.kind = true → s'.rows key = s.rows key) → P s') : Completes x P s :=
  Proc.wp_mono (h s) (fun _ s' hsame _ => hP s' hsame) fun _ _ _ => trivial

theorem Completes.putRow_next (h : s.takes key value = true → Completes y Q (s.with key (some value))) :
    Completes (Cybou.putRow key value >>= fun ok => if ok = false then pure false else y) Q s := by
  refine Completes.next (P := fun s' => s.takes key value = true ∧ s' = s.with key (some value))
    (Completes.putRow fun htaken => ⟨htaken, rfl⟩) fun s' hs' => ?_
  rw [hs'.2]
  exact h hs'.1

theorem Completes.framed {kept : KeyKind → Bool} (hx : Frames kept x)
    (hy : ∀ s', (∀ key, kept key.kind = true → s'.rows key = s.rows key) → Completes y Q s') :
    Completes (x >>= fun ok => if ok = false then pure false else y) Q s :=
  (hx.completes fun _ hsame => hsame).next hy

theorem takes_length (h : s.takes key value = true) :
    value.length ≤ MAX_VALUE_BYTES := by
  rw [StagedRows.takes, Bool.and_eq_true, decide_eq_true_eq] at h
  exact h.2

end

theorem transact_completes {unlocked : Bool} {fate : Fate} {rows : ApplicationRows} {body : Staging Bool}
    {P : StagedRows → Prop} (h : unlocked = true → Completes body P (.opened unlocked rows)) :
    ((transact unlocked fate rows body).2 = rows ∧ (transact unlocked fate rows body).1 ≠ .ok true) ∨
    ∃ s, P s ∧ fate ≠ .lost ∧
      transact unlocked fate rows body = (.ok (decide (fate = .done)), s.over rows) := by
  rcases transact_cases unlocked fate rows body with hkept | ⟨s, hrun, _, hunlocked, hfate, hwritten⟩
  · exact .inl hkept
  · have hcompletes := h hunlocked
    rw [Completes, Proc.wp, hrun] at hcompletes
    exact .inr ⟨s, hcompletes rfl, hfate, hwritten⟩

/-! ### Indexes and records -/

def withId (ids : List (FixedBytes 32)) (id : FixedBytes 32) : List (FixedBytes 32) :=
  if id ∈ ids then ids else ids ++ [id]

theorem mem_withId {ids : List (FixedBytes 32)} {id other : FixedBytes 32} :
    other ∈ withId ids id ↔ other ∈ ids ∨ other = id := by
  unfold withId
  by_cases h : id ∈ ids
  · rw [if_pos h]
    exact ⟨.inl, fun hor => hor.elim (fun hin => hin) fun heq => heq ▸ h⟩
  · rw [if_neg h, List.mem_append, List.mem_singleton]

section

variable {s : StagedRows}

theorem addId_spec (kind : KeyKind) (id : FixedBytes 32) :
    Completes (addId kind id) (fun s' =>
      readIds (s'.rows (.only kind)) = withId (readIds (s.rows (.only kind))) id ∧
      ∀ key, key ≠ .only kind → s'.rows key = s.rows key) s := by
  unfold addId
  rw [Completes, wp_getRow_bind]
  dsimp only
  by_cases hmem : id ∈ readIds (s.rows (.only kind))
  · rw [if_pos hmem]
    exact fun _ => ⟨(if_pos hmem).symm, fun _ _ => rfl⟩
  · rw [if_neg hmem]
    refine Completes.putRow fun _ => ⟨?_, fun key hkey => StagedRows.with_other hkey⟩
    rw [StagedRows.with_same, readIds_idsRow, withId, if_neg hmem]

theorem saveFile_spec (record : FileRecord) (desired : Bool) :
    Completes (saveFile record desired) (fun s' =>
      (∃ encoded, fileRow record = some encoded ∧ s'.rows (fileKey desired record.item.itemId) = some encoded) ∧
      readIds (s'.rows (.only .filesIndex)) = withId (readIds (s.rows (.only .filesIndex))) record.item.itemId ∧
      ∀ key, key ≠ fileKey desired record.item.itemId → key ≠ .only .filesIndex → s'.rows key = s.rows key) s := by
  have hne : fileKey desired record.item.itemId ≠ .only .filesIndex := by
    refine ApplicationKey.ne_of_kind ?_
    cases desired <;> exact nofun
  unfold saveFile
  cases hrow : fileRow record with
  | none => exact Completes.refused
  | some encoded =>
    refine Completes.putRow_next fun _ => (addId_spec .filesIndex record.item.itemId).mono fun s' hs' => ?_
    obtain ⟨hindex, hother⟩ := hs'
    rw [StagedRows.with_other hne.symm] at hindex
    refine ⟨⟨encoded, rfl, ?_⟩, hindex, fun key hkey hkey' => ?_⟩
    · rw [hother _ hne, StagedRows.with_same]
    · rw [hother key hkey', StagedRows.with_other hkey]

end

end Cybou

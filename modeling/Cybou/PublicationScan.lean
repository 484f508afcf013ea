import Mathlib.Data.List.Sort
import Mathlib.Data.Nat.Digits.Defs
import Cybou.EventRuns
import Cybou.OnboardingProvenance
import Cybou.Library.Numerals

/-! # Paging through the heights that carry a publication (`finalized_event_index.cpp`)

`ScanPublicationHeights` reads the rows of the index in the order of their keys,
and continues where the last page stopped.  The keys are text: that their order
is the order of heights rests on the fixed width of `OrderedNumber`
(`VisitsRange.eq_publicationRows`).  What LevelDB visits between two keys is a parameter,
`VisitsRange`.
-/

namespace Cybou

open Library

/-! ### Keys -/

def PUBLICATIONS : Bytes := ascii "cybou/events/publication/"

def orderedNumber (number : UInt64) : Bytes := numeral hexDigit 16 16 number.toNat

def publicationKey (height : UInt64) : Bytes := PUBLICATIONS ++ orderedNumber height

/-- The value of a digit for `std::from_chars` with base 16. -/
def hexValue (c : UInt8) : Option Nat :=
  if 48 ≤ c ∧ c ≤ 57 then some (c.toNat - 48)
  else if 97 ≤ c ∧ c ≤ 102 then some (c.toNat - 87)
  else if 65 ≤ c ∧ c ≤ 70 then some (c.toNat - 55)
  else none

/-- `std::from_chars` with base 16, which has to use up the text. -/
def fromChars (text : Bytes) : Option UInt64 := do
  let number ← text.foldlM (fun acc c => (hexValue c).map (16 * acc + ·)) 0
  if text = [] ∨ number ≥ 2 ^ 64 then none else return UInt64.ofNat number

section

variable [Crypto]

def detectorPrefix (g : VerifiedNetworkGenesis) : Bytes :=
  ascii "poa-conflict-detector/" ++ hex g.networkBinding.1 ++ ascii "/" ++
    hex ((computePoaFinalizerKeyId g.poaKey).getD Hash256.ZERO).1 ++ ascii "/"

def StoreKey.text (g : VerifiedNetworkGenesis) : StoreKey → Bytes
  | .state => ascii "cybou/state"
  | .hash => ascii "cybou/hash"
  | .head => ascii "cybou/head"
  | .networkId => ascii "cybou/network-id"
  | .block id => ascii "cybou/block/" ++ hex id.1
  | .blockHeight height => ascii "cybou/block-height/" ++ decimal height.toNat
  | .operation id => ascii "cybou/operation/" ++ hex id.1
  | .stateHeight height => ascii "cybou/state-height/" ++ decimal height.toNat
  | .eventsHead => ascii "cybou/events/head"
  | .eventsOperation id => ascii "cybou/events/op/" ++ hex id.1
  | .eventsKem account epoch =>
    ascii "cybou/events/kem/" ++ hex account.1 ++ ascii "/" ++ orderedNumber epoch
  | .eventsPublication height => publicationKey height
  | .observed height parentBlockId => detectorPrefix g ++ ascii "observed/" ++
      hex (le64 height) ++ ascii "/" ++ hex parentBlockId.1
  | .detectorMetadata => detectorPrefix g ++ ascii "metadata"
  | .detectorHalt => detectorPrefix g ++ ascii "halt"

/-! ### Scanning -/

/-- What the iterator of LevelDB visits between two keys: the stored records, in the
    order of the bytes of their keys. -/
structure VisitsRange (g : VerifiedNetworkGenesis) (db : NodeDb) (first last : Bytes)
    (rows : List (Bytes × Bytes)) : Prop where
  ordered : rows.Pairwise fun a b => a.1 < b.1
  mem : ∀ key value, (key, value) ∈ rows ↔ encodeLocalBytes first ≤ key ∧ key ≤ encodeLocalBytes last ∧
    ∃ k : StoreKey, encodeLocalBytes (k.text g) = key ∧ db k = some value

structure FinalizedPublicationScan where
  heights : List UInt64
  scannedHeight : UInt64
deriving DecidableEq

/-- The visitor of `ScanPublicationHeights` over the records that are visited: the
    heights and the last one, with whether the page is full; nothing for a row that
    is not valid. -/
def visitRows (g : VerifiedNetworkGenesis) (db : NodeDb) (limit : Nat) :
    List (Bytes × Bytes) → List UInt64 → UInt64 → Except Fault (Option (List UInt64 × UInt64 × Bool))
  | [], heights, scannedHeight => .ok (some (heights, scannedHeight, false))
  | (rawKey, rawValue) :: rest, heights, _ =>
    match decodeLocalBytes rawKey, decodeLocalBytes rawValue with
    | some key, some value =>
      if key.length ≠ PUBLICATIONS.length + 16 then .ok none
      else
        match decodeLocation value, fromChars (key.drop PUBLICATIONS.length) with
        | some location, some height =>
          if location.height ≠ height ∨ validateFinalizedEvent g db location = false then .ok none
          else
            match getBlockAtHeight db height with
            | none => .ok none
            | some fb =>
              if fb.block.operations.any isRootPublication = false then .ok none
              else
                let heights := heights ++ [height]
                if heights.length ≥ limit then .ok (some (heights, height, true))
                else visitRows g db limit rest heights height
        | _, _ => .ok none
    | _, _ => .error .thrown

/-- The attempts of `ScanPublicationHeights`, each with whether it forces a rebuild. -/
def scanFrom (g : VerifiedNetworkGenesis) (iterator : NodeDb → Bytes → Bytes → List (Bytes × Bytes))
    (after through maxBlocks : UInt64) :
    List Bool → NodeDb → Except Fault (Option FinalizedPublicationScan) × NodeDb
  | [], db => (.ok none, db)
  | force :: rest, db =>
    match ensureFinalizedEvents g db force with
    | (.error fault, db) => (.error fault, db)
    | (.ok false, db) => (.ok none, db)
    | (.ok true, db) =>
      match getFinalizedHead db with
      | none => (.ok none, db)
      | some head =>
        if through > head.height then (.ok none, db)
        else if after ≥ through ∨ maxBlocks = 0 then
          (.ok (some { heights := [], scannedHeight := after }), db)
        else
          match visitRows g db (min maxBlocks.toNat 256)
              (iterator db (publicationKey (after + 1)) (publicationKey through)) [] after with
          | .error fault => (.error fault, db)
          | .ok none => scanFrom g iterator after through maxBlocks rest db
          | .ok (some (heights, scannedHeight, limited)) =>
            (.ok (some { heights, scannedHeight := if limited then scannedHeight else through }), db)

def scanPublicationHeights (g : VerifiedNetworkGenesis)
    (iterator : NodeDb → Bytes → Bytes → List (Bytes × Bytes)) (db : NodeDb)
    (after through maxBlocks : UInt64) : Except Fault (Option FinalizedPublicationScan) × NodeDb :=
  scanFrom g iterator after through maxBlocks [false, true] db

/-- Pages of the given sizes, each from where the one before stopped: the heights of
    all pages and where the last one stopped; nothing if a page fails. -/
def scanPages (g : VerifiedNetworkGenesis) (iterator : NodeDb → Bytes → Bytes → List (Bytes × Bytes))
    (through : UInt64) : List UInt64 → NodeDb → UInt64 → Option (List UInt64 × UInt64)
  | [], _, after => some ([], after)
  | maxBlocks :: rest, db, after =>
    match scanPublicationHeights g iterator db after through maxBlocks with
    | (.ok (some page), db) => do
      let (heights, reached) ← scanPages g iterator through rest db page.scannedHeight
      return (page.heights ++ heights, reached)
    | _ => none

end

/-! ### The order of the keys -/

theorem hexDigit_lt_hexDigit {m n : Nat} (h : m < n) (hn : n < 16) : hexDigit m < hexDigit n := by
  rw [hexDigit, hexDigit, UInt8.lt_iff_toNat_lt, UInt8.toNat_ofNat', UInt8.toNat_ofNat']
  split <;> split <;> omega

theorem hexValue_hexDigit {n : Nat} (h : n < 16) : hexValue (hexDigit n) = some n := by
  have hall : ∀ d < 16, hexValue (hexDigit d) = some d := by decide
  exact hall n h

@[simp] theorem length_orderedNumber (number : UInt64) : (orderedNumber number).length = 16 :=
  length_numeral ..

theorem toNat_lt_pow (number : UInt64) : number.toNat < 16 ^ 16 := number.toNat_lt

variable {a b : UInt64}

theorem orderedNumber_lt_orderedNumber (h : a < b) : orderedNumber a < orderedNumber b :=
  numeral_lt_numeral hexDigit 16 (fun _ _ => hexDigit_lt_hexDigit) (by decide) (UInt64.lt_iff_toNat_lt.mp h)
    (toNat_lt_pow b)

theorem orderedNumber_le_orderedNumber : orderedNumber a ≤ orderedNumber b ↔ a ≤ b := by
  constructor
  · intro h
    refine UInt64.not_lt.mp ?_
    intro hlt
    exact absurd (orderedNumber_lt_orderedNumber hlt) (not_lt.mpr h)
  · intro h
    rcases UInt64.lt_or_eq_of_le h with hlt | rfl
    · exact le_of_lt (orderedNumber_lt_orderedNumber hlt)
    · exact le_refl _

theorem fromChars_orderedNumber (number : UInt64) : fromChars (orderedNumber number) = some number := by
  have hread : (orderedNumber number).foldlM (fun acc c => (hexValue c).map (16 * acc + ·)) 0 =
      some number.toNat :=
    foldlM_numeral hexDigit 16 (fun _ => hexValue_hexDigit) (by decide) (toNat_lt_pow number)
  have hne : orderedNumber number ≠ [] := by
    intro h
    have hlen := length_orderedNumber number
    rw [h] at hlen
    cases hlen
  have hlt := number.toNat_lt
  rw [fromChars, hread, Option.bind_eq_bind, Option.bind_some, if_neg (by simp [hne]; omega),
    UInt64.ofNat_toNat]
  exact rfl

theorem length_PUBLICATIONS : PUBLICATIONS.length = 25 := by decide

theorem length_publicationKey (height : UInt64) : (publicationKey height).length = 41 := by
  rw [publicationKey, List.length_append, length_PUBLICATIONS, length_orderedNumber]

theorem encodeLocalBytes_publicationKey (height : UInt64) :
    encodeLocalBytes (publicationKey height) = 41 :: PUBLICATIONS ++ orderedNumber height := by
  rw [encodeLocalBytes, length_publicationKey]
  exact rfl

theorem encodeLocalBytes_publicationKey_lt (h : a < b) :
    encodeLocalBytes (publicationKey a) < encodeLocalBytes (publicationKey b) := by
  rw [encodeLocalBytes_publicationKey, encodeLocalBytes_publicationKey]
  exact append_lt_append_left _ (orderedNumber_lt_orderedNumber h)

theorem encodeLocalBytes_publicationKey_le (h : a ≤ b) :
    encodeLocalBytes (publicationKey a) ≤ encodeLocalBytes (publicationKey b) := by
  rcases UInt64.lt_or_eq_of_le h with hlt | rfl
  · exact le_of_lt (encodeLocalBytes_publicationKey_lt hlt)
  · exact le_refl _

theorem succ_le_iff {after height : UInt64} (hmax : after ≠ UINT64_MAX) : after + 1 ≤ height ↔ after < height := by
  rw [UInt64.le_iff_toNat_le, UInt64.lt_iff_toNat_lt, toNat_succ_of_ne_max hmax]
  omega

theorem length_decimal (n : UInt64) : (decimal n.toNat).length ≤ 20 := by
  have hlt := n.toNat_lt
  rw [decimal, List.length_map]
  exact Nat.toDigits_length 10 _ 20 (by decide) (by omega)

section

variable [Crypto]

/-- **Only the rows of publications have a key of their length.** -/
theorem StoreKey.eq_eventsPublication {g : VerifiedNetworkGenesis} {key : StoreKey}
    (h : (key.text g).length = 41) : ∃ height, key = .eventsPublication height := by
  have hprefix : 80 ≤ (detectorPrefix g).length := by
    have hname : (ascii "poa-conflict-detector/").length = 22 := by decide
    simp only [detectorPrefix, List.length_append, length_hex, hname, g.networkBinding.2]
    omega
  cases key with
  | eventsPublication height => exact ⟨height, rfl⟩
  | blockHeight height =>
    have hlen := length_decimal height
    have hname : (ascii "cybou/block-height/").length = 19 := by decide
    rw [StoreKey.text, List.length_append] at h
    omega
  | stateHeight height =>
    have hlen := length_decimal height
    have hname : (ascii "cybou/state-height/").length = 19 := by decide
    rw [StoreKey.text, List.length_append] at h
    omega
  | state | hash | head | networkId | eventsHead =>
    rw [StoreKey.text] at h
    exact absurd h (by decide)
  | block id | operation id | eventsOperation id =>
    simp only [StoreKey.text, List.length_append, length_hex, id.2] at h
    omega
  | eventsKem account epoch =>
    simp only [StoreKey.text, List.length_append, length_hex, account.2] at h
    omega
  | observed height parentBlockId =>
    simp only [StoreKey.text, List.length_append] at h
    omega
  | detectorMetadata | detectorHalt =>
    rw [StoreKey.text, List.length_append] at h
    omega

/-- **What lies between the keys of two heights are the rows of the heights between
    them.** -/
theorem StoreKey.between_publicationKeys {g : VerifiedNetworkGenesis} {first last : UInt64} {key : StoreKey}
    (hlow : encodeLocalBytes (publicationKey first) ≤ encodeLocalBytes (key.text g))
    (hhigh : encodeLocalBytes (key.text g) ≤ encodeLocalBytes (publicationKey last)) :
    ∃ height, key = .eventsPublication height ∧ first ≤ height ∧ height ≤ last := by
  rw [encodeLocalBytes_publicationKey] at hlow hhigh
  obtain ⟨rest, hkey, hlow, hhigh⟩ := exists_append_of_between hlow hhigh
  have hsize : (key.text g).length = 41 := by
    have hread := readCompactSize_compactSize (key.text g).length (key.text g)
    rw [← encodeLocalBytes, hkey, List.cons_append, readCompactSize, if_pos (by decide)] at hread
    split at hread
    · exact (congrArg Prod.fst (Option.some.inj hread)).symm
    · cases hread
  obtain ⟨height, rfl⟩ := StoreKey.eq_eventsPublication hsize
  rw [StoreKey.text, encodeLocalBytes_publicationKey] at hkey
  obtain rfl := List.append_cancel_left hkey
  exact ⟨height, rfl, orderedNumber_le_orderedNumber.mp hlow, orderedNumber_le_orderedNumber.mp hhigh⟩

/-! ### The rows of the chain -/

variable {g : VerifiedNetworkGenesis}

def publishes (fb : FinalizedBlock) : Bool := fb.block.operations.any isRootPublication

omit [Crypto] in
theorem apply_writtenPublication (db : NodeDb) (edits : Batch) (key : StoreKey) (value : Bytes) (written : Bool) :
    db.apply (edits ++ [if written = true then Edit.put key value else Edit.erase key]) key =
      if written = true then some value else none := by
  rw [Store.apply_append, Store.apply_cons, Store.apply_nil]
  cases written <;> simp [Edit.key, Edit.value]

variable {fb : FinalizedBlock}

theorem apply_rowsOf_publication (db : NodeDb)
    (hops : ∀ op ∈ fb.block.operations, ∃ id, computeOperationId op = some id) :
    db.apply (rowsOf fb.block false) (.eventsPublication fb.block.height) =
      if publishes fb = true then
        some (encodeLocalBytes (encodeLocation fb.block.height 0 (computeBlockId fb.block)))
      else none := by
  obtain ⟨edits, hedits, -⟩ := keys_operationEvents fb.block false hops 0
  have hrows : rowsOf fb.block false = edits ++ [if publishes fb = true then
      Edit.put (.eventsPublication fb.block.height)
        (encodeLocalBytes (encodeLocation fb.block.height 0 (computeBlockId fb.block)))
      else Edit.erase (.eventsPublication fb.block.height)] := by
    rw [rowsOf, writeEvents, hedits, publishes]
    cases fb.block.operations.any isRootPublication <;> rfl
  rw [hrows]
  exact apply_writtenPublication db edits _ _ _

variable {s genesis : CybouState} {chain : List FinalizedBlock} {head : FinalizedHead}

/-- **The rows of publications are those of the blocks that carry one.** -/
theorem Canonical.eventRows_publication
    {height : UInt64} {value : Bytes} (h : Canonical g genesis chain head s) :
    eventRows chain (.eventsPublication height) = some value ↔
      ∃ fb ∈ chain, fb.block.height = height ∧ publishes fb = true ∧
        value = encodeLocalBytes (encodeLocation height 0 (computeBlockId fb.block)) := by
  induction h with
  | genesis => simp [eventRows]
  | @block below parentHead parent s' tip hbelow hparent hmax hheight hcert hexec ih =>
    have hne := (Canonical.block hbelow hparent hmax hheight hcert hexec).heights_ne
    rw [eventRows]
    by_cases htip : tip.block.height = height
    · rw [← htip, apply_rowsOf_publication _ hcert.operationIds]
      constructor
      · intro hrow
        split at hrow
        · next hpublishes => exact ⟨tip, List.mem_cons_self, rfl, hpublishes, (Option.some.inj hrow).symm⟩
        · cases hrow
      · intro hex
        obtain ⟨fb, hfb, hsame, hpublishes, rfl⟩ := hex
        rcases List.mem_cons.mp hfb with rfl | hfb
        · rw [if_pos hpublishes]
        · exact absurd hsame (hne fb hfb)
    · have hnot : .eventsPublication height ∉ eventKeys tip.block := by
        intro hmem
        rcases mem_eventKeys.mp hmem with ⟨id, -, heq⟩ | hkem | heq
        · cases heq
        · obtain ⟨op, -, hop⟩ := List.mem_filterMap.mp hkem
          obtain ⟨account, epoch, heq⟩ := kemKey_eq_some hop
          cases heq
        · exact htip (StoreKey.eventsPublication.inj heq).symm
      rw [apply_rowsOf_of_notMem hcert.operationIds hnot, ih]
      constructor
      · intro hex
        obtain ⟨fb, hfb, hrest⟩ := hex
        exact ⟨fb, List.mem_cons_of_mem _ hfb, hrest⟩
      · intro hex
        obtain ⟨fb, hfb, hsame, hrest⟩ := hex
        rcases List.mem_cons.mp hfb with rfl | hfb
        · exact absurd hsame htip
        · exact ⟨fb, hfb, hsame, hrest⟩

theorem Canonical.heights_lt (h : Canonical g genesis chain head s) :
    chain.reverse.Pairwise fun a b => a.block.height < b.block.height := by
  rw [List.pairwise_reverse]
  induction h with
  | genesis => exact .nil
  | @block below parentHead parent s' tip hbelow hparent hmax hheight hcert hexec ih =>
    refine .cons ?_ ih
    intro fb hfb
    have hle := (hbelow.height_le fb hfb).2
    rw [UInt64.lt_iff_toNat_lt, hheight, toNat_succ_of_ne_max hmax]
    omega

def publicationBlocks (chain : List FinalizedBlock) (after through : UInt64) : List FinalizedBlock :=
  chain.reverse.filter fun fb => after < fb.block.height && fb.block.height ≤ through && publishes fb

def publicationRow (fb : FinalizedBlock) : Bytes × Bytes :=
  (encodeLocalBytes (publicationKey fb.block.height),
    encodeLocalBytes (encodeLocation fb.block.height 0 (computeBlockId fb.block)))

variable {after through : UInt64}

omit [Crypto] in
theorem mem_publicationBlocks :
    fb ∈ publicationBlocks chain after through ↔
      fb ∈ chain ∧ after < fb.block.height ∧ fb.block.height ≤ through ∧ publishes fb = true := by
  rw [publicationBlocks, List.mem_filter, List.mem_reverse, Bool.and_eq_true, Bool.and_eq_true,
    decide_eq_true_eq, decide_eq_true_eq, and_assoc]

variable {db : NodeDb}

/-- **Between two keys the store has the publications of the heights between.** -/
theorem VisitsRange.eq_publicationRows {rows : List (Bytes × Bytes)} (h : Canonical g genesis chain head s)
    (hrows : ∀ key : StoreKey, key.isEventRow = true → db key = eventRows chain key) (hmax : after ≠ UINT64_MAX)
    (hvisits : VisitsRange g db (publicationKey (after + 1)) (publicationKey through) rows) :
    rows = (publicationBlocks chain after through).map publicationRow := by
  have hsorted : ((publicationBlocks chain after through).map publicationRow).Pairwise
      fun a b => a.1 < b.1 := by
    rw [List.pairwise_map]
    refine (h.heights_lt.filter _).imp ?_
    intro a b hlt
    exact encodeLocalBytes_publicationKey_lt hlt
  have : Std.Irrefl fun a b : Bytes × Bytes => a.1 < b.1 := ⟨fun a => lt_irrefl a.1⟩
  have : Std.Antisymm fun a b : Bytes × Bytes => a.1 < b.1 := ⟨fun a b hab hba => absurd hab (lt_asymm hba)⟩
  refine hvisits.ordered.eq_of_mem_iff hsorted ?_
  intro row
  obtain ⟨key, value⟩ := row
  rw [hvisits.mem, List.mem_map]
  constructor
  · intro hstored
    obtain ⟨hlow, hhigh, k, rfl, hvalue⟩ := hstored
    obtain ⟨height, rfl, hfirst, hlast⟩ := StoreKey.between_publicationKeys hlow hhigh
    rw [hrows _ rfl] at hvalue
    obtain ⟨fb, hfb, rfl, hpublishes, rfl⟩ := h.eventRows_publication.mp hvalue
    exact ⟨fb, mem_publicationBlocks.mpr ⟨hfb, (succ_le_iff hmax).mp hfirst, hlast, hpublishes⟩, rfl⟩
  · intro hblock
    obtain ⟨fb, hfb, heq⟩ := hblock
    obtain ⟨hfb, hafter, hthrough, hpublishes⟩ := mem_publicationBlocks.mp hfb
    rw [publicationRow, Prod.mk.injEq] at heq
    obtain ⟨rfl, rfl⟩ := heq
    refine ⟨encodeLocalBytes_publicationKey_le ((succ_le_iff hmax).mpr hafter),
      encodeLocalBytes_publicationKey_le hthrough, .eventsPublication fb.block.height, rfl, ?_⟩
    rw [hrows _ rfl]
    exact h.eventRows_publication.mpr ⟨fb, hfb, rfl, hpublishes, rfl⟩

/-! ### One page -/

/-- The heights are those of the blocks above `after`, up to `through`, that carry a
    publication: each once, and in order. -/
structure VisitsPublications (chain : List FinalizedBlock) (after through : UInt64)
    (heights : List UInt64) : Prop where
  ordered : heights.Pairwise (· < ·)
  mem : ∀ height, height ∈ heights ↔ after < height ∧ height ≤ through ∧
    ∃ fb ∈ chain, fb.block.height = height ∧ fb.block.operations.any isRootPublication = true

omit [Crypto] in
theorem VisitsPublications.refl (chain : List FinalizedBlock) (after : UInt64) :
    VisitsPublications chain after after [] where
  ordered := .nil
  mem height := by
    refine iff_of_false List.not_mem_nil ?_
    rintro ⟨hafter, hthrough, -⟩
    exact absurd hafter (UInt64.not_lt.mpr hthrough)

omit [Crypto] in
theorem VisitsPublications.append {middle : UInt64}
    {first second : List UInt64} (hfirst : VisitsPublications chain after middle first)
    (hsecond : VisitsPublications chain middle through second) (hle : after ≤ middle)
    (hle' : middle ≤ through) : VisitsPublications chain after through (first ++ second) where
  ordered := by
    rw [List.pairwise_append]
    refine ⟨hfirst.ordered, hsecond.ordered, ?_⟩
    intro a ha b hb
    exact UInt64.lt_of_le_of_lt ((hfirst.mem a).mp ha).2.1 ((hsecond.mem b).mp hb).1
  mem height := by
    rw [List.mem_append, hfirst.mem, hsecond.mem]
    constructor
    · intro h
      rcases h with ⟨hafter, hmiddle, hex⟩ | ⟨hmiddle, hthrough, hex⟩
      · exact ⟨hafter, UInt64.le_trans hmiddle hle', hex⟩
      · exact ⟨UInt64.lt_of_le_of_lt hle hmiddle, hthrough, hex⟩
    · intro h
      obtain ⟨hafter, hthrough, hex⟩ := h
      rcases UInt64.le_total height middle with hmiddle | hmiddle
      · exact .inl ⟨hafter, hmiddle, hex⟩
      · rcases UInt64.lt_or_eq_of_le hmiddle with hlt | rfl
        · exact .inr ⟨hlt, hthrough, hex⟩
        · exact .inl ⟨hafter, UInt64.le_refl _, hex⟩

theorem Canonical.visitsPublications {taken rest : List FinalizedBlock}
    {last : UInt64} (h : Canonical g genesis chain head s)
    (hsplit : publicationBlocks chain after through = taken ++ rest) (hlast : last ≤ through)
    (htaken : ∀ fb ∈ taken, fb.block.height ≤ last) (hrest : ∀ fb ∈ rest, last < fb.block.height) :
    VisitsPublications chain after last (taken.map fun fb => fb.block.height) where
  ordered := by
    rw [List.pairwise_map]
    have hsorted := h.heights_lt.filter
      fun fb => after < fb.block.height && fb.block.height ≤ through && publishes fb
    rw [← publicationBlocks, hsplit, List.pairwise_append] at hsorted
    exact hsorted.1
  mem height := by
    rw [List.mem_map]
    constructor
    · rintro ⟨fb, hfb, rfl⟩
      have hmem : fb ∈ publicationBlocks chain after through := by
        rw [hsplit]
        exact List.mem_append_left _ hfb
      obtain ⟨hchain, hafter, -, hpublishes⟩ := mem_publicationBlocks.mp hmem
      exact ⟨hafter, htaken fb hfb, fb, hchain, rfl, hpublishes⟩
    · rintro ⟨hafter, hle, fb, hchain, rfl, hpublishes⟩
      have hmem : fb ∈ publicationBlocks chain after through :=
        mem_publicationBlocks.mpr ⟨hchain, hafter, UInt64.le_trans hle hlast, hpublishes⟩
      rw [hsplit, List.mem_append] at hmem
      rcases hmem with hfb | hfb
      · exact ⟨fb, hfb, rfl⟩
      · exact absurd (hrest fb hfb) (UInt64.not_lt.mpr hle)

theorem Consistent.visitRows_cons {limit : Nat} {rest : List (Bytes × Bytes)}
    {heights : List UInt64} {scannedHeight : UInt64} (h : Consistent g genesis chain head s db)
    (hreadable : ReadableChain chain) (hfb : fb ∈ chain) (hpublishes : publishes fb = true) :
    visitRows g db limit (publicationRow fb :: rest) heights scannedHeight =
      if heights.length + 1 ≥ limit then .ok (some (heights ++ [fb.block.height], fb.block.height, true))
      else visitRows g db limit rest (heights ++ [fb.block.height]) fb.block.height := by
  have hkey : decodeLocalBytes (encodeLocalBytes (publicationKey fb.block.height)) =
      some (publicationKey fb.block.height) := by
    rw [decodeLocalBytes_encodeLocalBytes, length_publicationKey, if_pos (by decide)]
  have hvalue : decodeLocalBytes (encodeLocalBytes (encodeLocation fb.block.height 0 (computeBlockId fb.block))) =
      some (encodeLocation fb.block.height 0 (computeBlockId fb.block)) := by
    rw [decodeLocalBytes_encodeLocalBytes, if_pos (length_encodeLocation _ _ _)]
  have hlocation := decodeLocation_encodeLocation ⟨fb.block.height, 0, computeBlockId fb.block⟩
  have hheight : fromChars ((publicationKey fb.block.height).drop PUBLICATIONS.length) = some fb.block.height := by
    rw [publicationKey, List.drop_left]
    exact fromChars_orderedNumber fb.block.height
  have hvalid : Cybou.validateFinalizedEvent g db ⟨fb.block.height, 0, computeBlockId fb.block⟩ = true := by
    refine h.validateFinalizedEvent hreadable hfb ?_
    obtain ⟨op, hop, -⟩ := List.any_eq_true.mp hpublishes
    exact List.length_pos_of_mem hop
  rw [publishes] at hpublishes
  dsimp only at hlocation
  rw [publicationRow, visitRows]
  simp only [hkey, hvalue]
  rw [if_neg (by rw [length_publicationKey, length_PUBLICATIONS]; decide)]
  simp only [hlocation, hheight]
  rw [if_neg (by simp [hvalid]), h.getBlockAtHeight hfb, if_pos (hreadable fb hfb)]
  simp only [hpublishes, List.length_append, List.length_singleton]
  rw [if_neg (by decide)]

/-- **The visitor stops at the end of the range, or at the block that fills the page.** -/
theorem Consistent.visitRows_publicationRows {genesis s : CybouState} {chain : List FinalizedBlock}
    {head : FinalizedHead} {db : NodeDb} {limit : Nat} (h : Consistent g genesis chain head s db)
    (hreadable : ReadableChain chain) {blocks : List FinalizedBlock}
    (hblocks : ∀ fb ∈ blocks, fb ∈ chain ∧ publishes fb = true) {heights : List UInt64}
    {scannedHeight : UInt64} :
    (∃ last, visitRows g db limit (blocks.map publicationRow) heights scannedHeight =
      .ok (some (heights ++ blocks.map fun fb => fb.block.height, last, false))) ∨
    ∃ taken fb rest, blocks = taken ++ fb :: rest ∧
      visitRows g db limit (blocks.map publicationRow) heights scannedHeight =
        .ok (some (heights ++ (taken ++ [fb]).map fun fb => fb.block.height, fb.block.height, true)) := by
  induction blocks generalizing heights scannedHeight with
  | nil =>
    refine .inl ⟨scannedHeight, ?_⟩
    rw [List.map_nil, List.map_nil, List.append_nil, visitRows]
  | cons fb blocks ih =>
    rw [List.forall_mem_cons] at hblocks
    obtain ⟨⟨hfb, hpublishes⟩, hblocks⟩ := hblocks
    rw [List.map_cons, h.visitRows_cons hreadable hfb hpublishes]
    by_cases hfull : heights.length + 1 ≥ limit
    · rw [if_pos hfull]
      exact .inr ⟨[], fb, blocks, rfl, rfl⟩
    · rw [if_neg hfull]
      rcases @ih hblocks (heights ++ [fb.block.height]) fb.block.height with
        ⟨last, hscan⟩ | ⟨taken, next, rest, rfl, hscan⟩
      · refine .inl ⟨last, ?_⟩
        rw [hscan, List.map_cons, List.append_assoc, List.singleton_append]
      · refine .inr ⟨fb :: taken, next, rest, rfl, ?_⟩
        rw [hscan, List.cons_append, List.map_cons, List.append_assoc, List.singleton_append]

/-- **One page**: it leaves the index complete, and its cursor is where its heights
    stop. -/
theorem Consistent.scanPublicationHeights {iterator : NodeDb → Bytes → Bytes → List (Bytes × Bytes)}
    (h : Consistent g genesis chain head s db) (hindexed : Indexed chain head db)
    (hreadable : ReadableChain chain)
    (hvisits : ∀ (db : NodeDb) (first last : UInt64), VisitsRange g db (publicationKey first)
      (publicationKey last) (iterator db (publicationKey first) (publicationKey last)))
    (hle : after ≤ through) (hthrough : through ≤ head.height) (maxBlocks : UInt64) :
    ∃ page db', scanPublicationHeights g iterator db after through maxBlocks = (.ok (some page), db') ∧
      Consistent g genesis chain head s db' ∧ Indexed chain head db' ∧
      VisitsPublications chain after page.scannedHeight page.heights ∧
      after ≤ page.scannedHeight ∧ page.scannedHeight ≤ through ∧
      (0 < maxBlocks → after < through → after < page.scannedHeight) := by
  obtain ⟨db', hensure, hrebuilt⟩ := (h.ensure hindexed false).1 hreadable
  have hstore' : Consistent g genesis chain head s db' :=
    h.sameRecords fun key _ hkey => hrebuilt.others key hkey
  rw [Cybou.scanPublicationHeights, scanFrom, hensure]
  dsimp only
  rw [hstore'.getFinalizedHead]
  dsimp only
  rw [if_neg (UInt64.not_lt.mpr hthrough)]
  by_cases hempty : after ≥ through ∨ maxBlocks = 0
  · rw [if_pos hempty]
    refine ⟨_, db', rfl, hstore', hrebuilt.indexed, .refl chain after, UInt64.le_refl _, hle, ?_⟩
    intro hpos hlt
    rcases hempty with hge | rfl
    · exact absurd hlt (UInt64.not_lt.mpr hge)
    · exact absurd hpos (by decide)
  · rw [if_neg hempty]
    push Not at hempty
    have hlt : after < through := UInt64.not_le.mp hempty.1
    have hmax : after ≠ UINT64_MAX := by
      rintro rfl
      rw [UInt64.lt_iff_toNat_lt] at hlt
      have hbound := through.toNat_lt
      have hvalue : UINT64_MAX.toNat = 2 ^ 64 - 1 := by decide
      omega
    rw [(hvisits db' (after + 1) through).eq_publicationRows h.canonical hrebuilt.rows hmax]
    have hblocks : ∀ fb ∈ publicationBlocks chain after through, fb ∈ chain ∧ publishes fb = true := by
      intro fb hfb
      obtain ⟨hchain, -, -, hpublishes⟩ := mem_publicationBlocks.mp hfb
      exact ⟨hchain, hpublishes⟩
    rcases @Consistent.visitRows_publicationRows _ _ _ _ _ _ _ (min maxBlocks.toNat 256) hstore' hreadable
      _ hblocks [] after with ⟨last, hscan⟩ | ⟨taken, fb, rest, hsplit, hscan⟩
    · rw [hscan]
      refine ⟨_, db', rfl, hstore', hrebuilt.indexed, ?_, hle, UInt64.le_refl _, fun _ _ => hlt⟩
      refine h.canonical.visitsPublications (List.append_nil _).symm (UInt64.le_refl _) ?_ (fun _ => nofun)
      intro fb hfb
      exact (mem_publicationBlocks.mp hfb).2.2.1
    · rw [hscan]
      have hmem : fb ∈ publicationBlocks chain after through := by simp [hsplit]
      obtain ⟨-, hafter, hend, -⟩ := mem_publicationBlocks.mp hmem
      -- the blocks of the page come before the rest of the range
      have hsorted := h.canonical.heights_lt.filter
        fun fb => after < fb.block.height && fb.block.height ≤ through && publishes fb
      rw [← publicationBlocks, hsplit, List.pairwise_append, List.pairwise_cons] at hsorted
      obtain ⟨-, ⟨hrest, -⟩, hcross⟩ := hsorted
      refine ⟨_, db', rfl, hstore', hrebuilt.indexed, ?_, UInt64.le_of_lt hafter, hend, fun _ _ => hafter⟩
      refine h.canonical.visitsPublications (hsplit.trans (by simp)) hend ?_ hrest
      intro other hother
      rcases List.mem_append.mp hother with hother | hother
      · exact UInt64.le_of_lt (hcross other hother fb List.mem_cons_self)
      · rw [List.mem_singleton.mp hother]
        exact UInt64.le_refl _

/-! ### Paging -/

/-- **Paging visits the publications of a range, each once and in order**: whatever the
    sizes of the pages, what has been visited are the publications up to the cursor, and
    a page that asks for blocks moves the cursor. -/
theorem scan_pages_publications {genesis s : CybouState} {chain : List FinalizedBlock} {head : FinalizedHead}
    {db : NodeDb} {iterator : NodeDb → Bytes → Bytes → List (Bytes × Bytes)} {after through : UInt64}
    (h : Consistent g genesis chain head s db) (hindexed : Indexed chain head db)
    (hreadable : ReadableChain chain)
    (hvisits : ∀ (db : NodeDb) (first last : UInt64), VisitsRange g db (publicationKey first)
      (publicationKey last) (iterator db (publicationKey first) (publicationKey last)))
    (hle : after ≤ through) (hthrough : through ≤ head.height) (pages : List UInt64) :
    (∃ heights reached, scanPages g iterator through pages db after = some (heights, reached) ∧
      VisitsPublications chain after reached heights ∧ after ≤ reached ∧ reached ≤ through ∧
      (through.toNat - after.toNat ≤ (pages.filter (0 < ·)).length → reached = through)) ∧
    ∀ maxBlocks, 0 < maxBlocks → after < through → ∃ page db',
      scanPublicationHeights g iterator db after through maxBlocks = (.ok (some page), db') ∧
        after < page.scannedHeight := by
  constructor
  · induction pages generalizing db after with
    | nil =>
      refine ⟨[], after, rfl, .refl chain after, UInt64.le_refl _, hle, ?_⟩
      intro hdone
      rw [UInt64.le_iff_toNat_le] at hle
      rw [List.filter_nil, List.length_nil] at hdone
      exact UInt64.toNat_inj.mp (by omega)
    | cons maxBlocks pages ih =>
      obtain ⟨page, db', hscan, hstore', hindexed', hvisited, hcursor, hend, hprogress⟩ :=
        h.scanPublicationHeights hindexed hreadable hvisits hle hthrough maxBlocks
      obtain ⟨heights, reached, hpages, hvisited', hcursor', hend', hdone'⟩ := ih hstore' hindexed' hend
      refine ⟨page.heights ++ heights, reached, ?_, hvisited.append hvisited' hcursor hcursor',
        UInt64.le_trans hcursor hcursor', hend', ?_⟩
      · rw [scanPages, hscan]
        dsimp only
        rw [hpages]
        exact rfl
      · intro hdone
        refine hdone' ?_
        rw [UInt64.le_iff_toNat_le] at hcursor hend
        rw [List.filter_cons] at hdone
        split at hdone
        · next hpos =>
          rw [List.length_cons] at hdone
          rw [decide_eq_true_eq] at hpos
          have hmoved : after.toNat < through.toNat → after.toNat < page.scannedHeight.toNat := by
            intro hlt
            exact UInt64.lt_iff_toNat_lt.mp (hprogress hpos (UInt64.lt_iff_toNat_lt.mpr hlt))
          omega
        · omega
  · intro maxBlocks hpos hlt
    obtain ⟨page, db', hscan, -, -, -, -, -, hprogress⟩ :=
      h.scanPublicationHeights hindexed hreadable hvisits hle hthrough maxBlocks
    exact ⟨page, db', hscan, hprogress hpos hlt⟩

end

section Sample

attribute [local instance] Crypto.sample

def publicationsAt (heights : List UInt64) (db : NodeDb) (first last : Bytes) : List (Bytes × Bytes) :=
  heights.filterMap fun height =>
    (db (.eventsPublication height)).bind fun value =>
      if encodeLocalBytes first ≤ encodeLocalBytes (publicationKey height) ∧
          encodeLocalBytes (publicationKey height) ≤ encodeLocalBytes last then
        some (encodeLocalBytes (publicationKey height), value)
      else none

theorem mem_publicationsAt {heights : List UInt64} {db : NodeDb} {first last : Bytes} {row : Bytes × Bytes} :
    row ∈ publicationsAt heights db first last ↔ ∃ height ∈ heights, db (.eventsPublication height) = some row.2 ∧
      encodeLocalBytes (publicationKey height) = row.1 ∧ encodeLocalBytes first ≤ row.1 ∧
        row.1 ≤ encodeLocalBytes last := by
  rw [publicationsAt, List.mem_filterMap]
  refine exists_congr fun height => and_congr_right fun _ => ?_
  rw [Option.bind_eq_some_iff]
  constructor
  · rintro ⟨value, hvalue, hrow⟩
    split at hrow
    · next hbounds =>
      rw [← Option.some.inj hrow]
      exact ⟨hvalue, rfl, hbounds⟩
    · cases hrow
  · rintro ⟨hvalue, hkey, hbounds⟩
    refine ⟨row.2, hvalue, ?_⟩
    rw [hkey, if_pos hbounds]

theorem visitsRange_publicationsAt {g : VerifiedNetworkGenesis} {heights : List UInt64}
    (hordered : heights.Pairwise (· < ·)) (hall : ∀ height, height ∈ heights) (db : NodeDb) (first last : UInt64) :
    VisitsRange g db (publicationKey first) (publicationKey last)
      (publicationsAt heights db (publicationKey first) (publicationKey last)) where
  ordered := by
    rw [publicationsAt, List.pairwise_filterMap]
    refine hordered.imp ?_
    intro a b hlt row hrow row' hrow'
    have hkey : ∀ height row, (db (.eventsPublication height)).bind (fun value =>
        if encodeLocalBytes (publicationKey first) ≤ encodeLocalBytes (publicationKey height) ∧
            encodeLocalBytes (publicationKey height) ≤ encodeLocalBytes (publicationKey last) then
          some (encodeLocalBytes (publicationKey height), value)
        else none) = some row → row.1 = encodeLocalBytes (publicationKey height) := by
      intro height row h
      obtain ⟨value, -, h⟩ := Option.bind_eq_some_iff.mp h
      split at h
      · rw [← Option.some.inj h]
      · cases h
    rw [hkey a row hrow, hkey b row' hrow']
    exact encodeLocalBytes_publicationKey_lt hlt
  mem key value := by
    rw [mem_publicationsAt]
    constructor
    · rintro ⟨height, -, hvalue, hkey, hlow, hhigh⟩
      exact ⟨hlow, hhigh, .eventsPublication height, hkey, hvalue⟩
    · rintro ⟨hlow, hhigh, k, rfl, hvalue⟩
      obtain ⟨height, rfl, -, -⟩ := StoreKey.between_publicationKeys hlow hhigh
      exact ⟨height, hall height, hvalue, rfl, hlow, hhigh⟩

def allHeights : List UInt64 := (List.range UInt64.size).map UInt64.ofNat

theorem mem_allHeights (height : UInt64) : height ∈ allHeights :=
  List.mem_map.mpr ⟨height.toNat, List.mem_range.mpr height.toNat_lt, UInt64.ofNat_toNat⟩

theorem pairwise_allHeights : allHeights.Pairwise (· < ·) := by
  rw [allHeights, List.pairwise_map]
  refine (List.pairwise_lt_range (n := UInt64.size)).imp_of_mem ?_
  intro a b ha hb hlt
  rw [List.mem_range] at ha hb
  rw [UInt64.lt_iff_toNat_lt, UInt64.toNat_ofNat_of_lt' ha, UInt64.toNat_ofNat_of_lt' hb]
  exact hlt

def samplePublish : AuthorizedRootPublication :=
  let publication : RootPublication :=
    { rootChunkId := sampleId 11, chunkAuthorizationRoot := sampleId 12, chunkCount := 1, leasePeriods := 1
      recipientCapsules :=
        [{ kemProfile := IDENTITY_KEM_PROFILE_XWING, keyEpoch := 0, encapsulation := FixedBytes.zero 1120
           wrappedContentKey := FixedBytes.zero 60 }] }
  { authorization :=
      { accountId := sampleId 1, nonce := 0, keyEpoch := 0, kind := .rootPublication
        payloadCommitment := (computeRootPublicationPayloadCommitment publication).getD (sampleId 0)
        signature := sampleSignature }
    publication }

def executedPublish : Option BlockExecutionResult :=
  executeBlockOperations creditedState [.rootPublication samplePublish]
    (blockContext (sampleNetwork creditedState) (firstBlock [.rootPublication samplePublish] Hash256.ZERO))

def publishRoot : Hash256 := (executedPublish.bind (·.stateRoot)).getD Hash256.ZERO

def publishBlock : FinalizedBlock := certifiedBlock (firstBlock [.rootPublication samplePublish] publishRoot)

theorem executedPublish_evaluated :
    executedPublish.any (fun execution => execution.isOk && execution.state.isSome && execution.stateRoot.isSome) =
      true := by
  decide +kernel

set_option maxRecDepth 100000 in
theorem samplePublish_serialized :
    (serializeProtocolOperation (.rootPublication samplePublish)).any (fun b => decide (b.length ≤ 4096)) = true := by
  decide

theorem serializeBlock_publish (root : Hash256) :
    ∃ b, serializeBlock (firstBlock [.rootPublication samplePublish] root) = some b ∧ b.length ≤ 8192 := by
  obtain ⟨operation, hoperation, hsize⟩ := (Option.any_eq_true _ _).mp samplePublish_serialized
  have hlength := of_decide_eq_true hsize
  have hbytes : operationBytes (.rootPublication samplePublish) = operation := by
    simp [operationBytes, hoperation]
  refine ⟨_, serializeBlock_eq_some.mpr ⟨fun op hop => ?_, rfl⟩, ?_⟩
  · rw [List.mem_singleton.mp hop, hoperation]
    exact Option.some_ne_none operation
  · have hroot := root.2
    simp only [blockBytes, firstBlock, Reader.concat, List.map_singleton, List.flatten_singleton, framed, hbytes,
      List.length_append, length_le32Of, length_le64, hroot, (sampleId 201).2]
    omega

theorem competitor_publishBlock :
    Competitor (sampleNetwork creditedState) sampleHead creditedState publishBlock := by
  obtain ⟨execution, hexecution, hrun⟩ := (Option.any_eq_true _ _).mp executedPublish_evaluated
  obtain ⟨hok, hroot⟩ := (Bool.and_eq_true _ _).mp hrun
  obtain ⟨root, hsome⟩ := Option.isSome_iff_exists.mp hroot
  obtain ⟨b, hserialize, -⟩ := serializeBlock_publish publishRoot
  have hcarried : publishRoot = root := by
    rw [publishRoot, hexecution, Option.bind_some, hsome, Option.getD_some]
  rw [Bool.and_eq_true] at hok
  have hcarries : ∀ root', (certifiedBlock (firstBlock [.rootPublication samplePublish] root')).block.resultingStateRoot =
      root' := fun _ => rfl
  refine competitor_executed rfl (Option.isSome_iff_exists.mpr ⟨b, hserialize⟩) hexecution hok.1 hok.2 ?_
  rw [hsome, ← hcarried]
  exact congrArg some (hcarries publishRoot).symm

theorem length_finalizedBytes_publishBlock : (finalizedBytes publishBlock).length ≤ MAX_COMPACT_SIZE := by
  have hmax : MAX_COMPACT_SIZE = 33554432 := rfl
  obtain ⟨b, hserialize, hsize⟩ := serializeBlock_publish publishRoot
  rw [finalizedBytes]
  cases hfinalized : serializeFinalizedBlock publishBlock with
  | none => exact Nat.zero_le _
  | some bytes =>
    obtain ⟨block, cert, hblock, hcert, rfl⟩ := serializeFinalizedBlock_eq_some.mp hfinalized
    obtain rfl : b = block := Option.some.inj (hserialize.symm.trans hblock)
    have hlength : cert.length = POA_FINALITY_CERTIFICATE_SIZE :=
      Reader.length_of_sized ((poaFinalityCertificate_inverse _ _).mpr hcert)
    have hcertificate : POA_FINALITY_CERTIFICATE_SIZE = 3477 := rfl
    simp only [Option.getD_some, framed, List.length_append, length_le32Of]
    omega

theorem ids_publishBlock : IdsDistinct [publishBlock] where
  block a ha b hb _ := by rw [List.mem_singleton.mp ha, List.mem_singleton.mp hb]
  operation x hx y hy id _ _ := by
    rw [List.flatMap_singleton] at hx hy
    rw [List.mem_singleton.mp hx, List.mem_singleton.mp hy]

/-- The pages of a chain with one publication, on a node that was stopped in a rebuild. -/
theorem scan_pages_publications_publishBlock :
    ∃ (db : NodeDb) (s : CybouState), Consistent (sampleNetwork creditedState) creditedState [publishBlock]
        ⟨computeBlockId publishBlock.block, publishBlock.block.height⟩ s db ∧ db .eventsHead = none ∧
      ∃ heights, scanPages (sampleNetwork creditedState) (publicationsAt allHeights) 1 [0, 2] db 0 =
          some (heights, 1) ∧
        VisitsPublications [publishBlock] 0 1 heights ∧ 1 ∈ heights := by
  have hgenesis : StateInvariant creditedState := validateCybouState_eq_none.mp samplePayment_evaluated.1
  obtain ⟨node, -, hlive, hobserved, -⟩ := live_sampleNetwork hgenesis
  obtain ⟨s, hlive', -⟩ :=
    hlive.deliver_first hgenesis ids_publishBlock competitor_publishBlock (.inl (hobserved _ _))
  generalize deliver (sampleNetwork creditedState) node publishBlock = node at hlive'
  have hnode := hlive'.consistent
  -- the node was stopped in a rebuild of its index
  obtain ⟨hindexed, hframe⟩ := hnode.store.stopped (.rewriting 0)
  have hstore := hnode.store.sameRecords fun key _ hkey => hframe key hkey
  have hmarker : stoppedRebuild (sampleNetwork creditedState) node.db (.rewriting 0) .eventsHead = none := by
    rw [stoppedRebuild, hnode.store.getFinalizedHead]
    exact rewriteEvents_frame rfl
  have hreadable : ReadableChain [publishBlock] := by
    intro fb hfb
    rw [List.mem_singleton.mp hfb]
    exact length_finalizedBytes_publishBlock
  obtain ⟨⟨heights, reached, hpages, hvisited, -, hend, hdone⟩, -⟩ := scan_pages_publications hstore hindexed
    hreadable (visitsRange_publicationsAt pairwise_allHeights mem_allHeights) (show (0 : UInt64) ≤ 1 by decide)
    (show (1 : UInt64) ≤ publishBlock.block.height by decide) [0, 2]
  obtain rfl : reached = 1 := hdone (by decide)
  exact ⟨_, s, hstore, hmarker, heights, hpages, hvisited,
    (hvisited.mem 1).mpr ⟨by decide, by decide, publishBlock, List.mem_singleton_self _, rfl, rfl⟩⟩

end Sample

end Cybou

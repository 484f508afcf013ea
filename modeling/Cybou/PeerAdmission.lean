import Cybou.Library.Bytes
import Cybou.Library.LowerBound

/-! # Country admission of peers (`p2p/peer_admission.cpp`)

A table of address ranges by country is loaded once and kept as the French ranges in the
order of their first addresses, the IPv4 ones first.  A lookup is one binary search.
Addresses are parsed by the network library, which stands here as a parameter.
-/

namespace Cybou.P2p

open Library

/-! ### Addresses -/

/-- `boost::asio::ip::address`, without the scope of an IPv6 address. -/
inductive IpAddress where
  | v4 (bytes : FixedBytes 4)
  | v6 (bytes : FixedBytes 16)

def isV4Mapped (bytes : FixedBytes 16) : Bool :=
  bytes.1.take 12 == List.replicate 10 0 ++ [0xff, 0xff]

/-- The bytes of an IPv4 address at the front of sixteen. -/
def paddedV4 (bytes : FixedBytes 4) : FixedBytes 16 :=
  ⟨bytes.1 ++ List.replicate 12 0, by rw [List.length_append, bytes.2, List.length_replicate]⟩

/-- The last four bytes of an IPv6 address. -/
def mappedV4 (bytes : FixedBytes 16) : FixedBytes 4 :=
  ⟨bytes.1.drop 12, by rw [List.length_drop, bytes.2]⟩

def IpAddress.normal : IpAddress → FixedBytes 16 × Bool
  | v4 bytes => (paddedV4 bytes, false)
  | v6 bytes => if isV4Mapped bytes = true then (paddedV4 (mappedV4 bytes), false) else (bytes, true)

def addressBytes (makeAddress : Bytes → Option IpAddress) (text : Bytes) : Option (FixedBytes 16 × Bool) :=
  (makeAddress text).map IpAddress.normal

/-! ### The table -/

def LINE_FEED : UInt8 := 10
def CARRIAGE_RETURN : UInt8 := 13
def COMMA : UInt8 := 44

def FR : Bytes := [70, 82]

def MAX_DATASET_BYTES : Nat := 64 * 1024 * 1024
def MAX_RECORDS : Nat := 1000000
def MAX_DATASET_AGE : Int := 45

/-- `FrenchIpDataset::Range`. -/
structure Range where
  first : FixedBytes 16
  last : FixedBytes 16
  ipv6 : Bool

def withoutReturn (line : Bytes) : Bytes :=
  if line.getLast? = some CARRIAGE_RETURN then line.dropLast else line

def nextLine (text : Bytes) : Option (Bytes × Bytes) :=
  if text = [] then none
  else
    let line := text.takeWhile fun c => c != LINE_FEED
    some (withoutReturn line, text.drop (line.length + 1))

/-- `std::string_view::find` of a character. -/
def findFrom (text : Bytes) (c : UInt8) (start : Nat) : Option Nat :=
  ((text.drop start).findIdx? fun other => other == c).map fun i => start + i

section

variable (makeAddress : Bytes → Option IpAddress)

/-- The body of the loop of `LoadDbIpCountryCsv`: the range of a line and its country. -/
def parseLine (line : Bytes) : Option (Range × Bytes) := do
  let firstComma ← findFrom line COMMA 0
  let secondComma ← findFrom line COMMA (firstComma + 1)
  if (findFrom line COMMA (secondComma + 1)).isSome = true ∨ firstComma = 0 ∨ secondComma = firstComma + 1 ∨
      secondComma + 3 ≠ line.length then none
  else
    let first ← addressBytes makeAddress (line.take firstComma)
    let last ← addressBytes makeAddress ((line.drop (firstComma + 1)).take (secondComma - firstComma - 1))
    if first.2 ≠ last.2 ∨ first.1 > last.1 then none
    else
      let country := (line.drop (secondComma + 1)).take 2
      if (country.all fun c => decide (65 ≤ c ∧ c ≤ 90)) = true then
        some ({ first := first.1, last := last.1, ipv6 := first.2 }, country)
      else none

/-- The loop of `LoadDbIpCountryCsv`; every turn takes at least one character, which bounds the
    turns. -/
def readRanges : Nat → Nat → Bytes → Option (List Range)
  | 0, _, _ => none
  | turns + 1, records, text =>
    match nextLine text with
    | none => some []
    | some (line, rest) =>
      if line = [] ∨ records + 1 > MAX_RECORDS then none
      else
        match parseLine makeAddress line with
        | none => none
        | some (range, country) =>
          (readRanges turns (records + 1) rest).map fun ranges => if country = FR then range :: ranges else ranges

def Range.less (left right : Range) : Bool :=
  if left.ipv6 ≠ right.ipv6 then decide (left.ipv6 < right.ipv6) else decide (left.first < right.first)

/-- Some range begins before the one ahead of it has ended. -/
def overlapping : List Range → Bool
  | left :: right :: ranges =>
    (decide (left.ipv6 = right.ipv6 ∧ right.first ≤ left.last)) || overlapping (right :: ranges)
  | _ => false

structure FrenchIpDataset where
  ranges : List Range

/-- `FrenchIpDataset::LoadDbIpCountryCsv`.  The file is its content, or `none` where it cannot be
    read whole; the month is its first day, or `none` where it is no month; ranges that begin
    alike overlap, so that the sort need not be stable. -/
def loadDbIpCountryCsv (computeSha256 : Bytes → Option (FixedBytes 32)) (file : Option Bytes)
    (expectedSha256 : FixedBytes 32) (issued : Option Int) (today : Int) : Option FrenchIpDataset := do
  let issued ← issued
  if today < issued ∨ today - issued > MAX_DATASET_AGE then none
  else
    let csv ← file
    if csv.length = 0 ∨ csv.length > MAX_DATASET_BYTES then none
    else if computeSha256 csv ≠ some expectedSha256 then none
    else
      let ranges ← readRanges makeAddress (csv.length + 1) 0 csv
      if ranges = [] then none
      else
        let ranges := ranges.mergeSort fun a b => !b.less a
        if overlapping ranges = true then none else some { ranges }

def FrenchIpDataset.isFrench (dataset : FrenchIpDataset) (numericAddress : Bytes) : Bool :=
  match addressBytes makeAddress numericAddress with
  | none => false
  | some (bytes, ipv6) =>
    let before := fun range : Range => decide (range.ipv6 < ipv6 ∨ range.ipv6 = ipv6 ∧ range.last < bytes)
    match dataset.ranges[lowerBound before dataset.ranges]? with
    | none => false
    | some found => decide (found.ipv6 = ipv6 ∧ found.first ≤ bytes ∧ bytes ≤ found.last)

end

/-! ### Lines -/

/-- The lines of a text: what stands between line feeds, without the carriage return before one;
    nothing stands after the last. -/
def csvLines (text : Bytes) : List Bytes :=
  let pieces := text.splitOn LINE_FEED
  (if pieces.getLast? = some [] then pieces.dropLast else pieces).map withoutReturn

theorem csvLines_nil : csvLines [] = [] := rfl

variable {line text : Bytes}

theorem csvLines_append (hline : LINE_FEED ∉ line) (rest : Bytes) :
    csvLines (line ++ LINE_FEED :: rest) = withoutReturn line :: csvLines rest := by
  have hpieces : rest.splitOn LINE_FEED ≠ [] := List.splitOn_ne_nil LINE_FEED rest
  unfold csvLines
  rw [List.splitOn_append_cons_self_of_not_mem hline]
  dsimp only
  rw [List.getLast?_cons_of_ne_nil hpieces, List.dropLast_cons_of_ne_nil hpieces]
  split
  · rfl
  · rfl

theorem csvLines_last (hline : LINE_FEED ∉ line) (hne : line ≠ []) :
    csvLines line = [withoutReturn line] := by
  unfold csvLines
  rw [List.splitOn_eq_singleton hline]
  dsimp only
  rw [List.getLast?_singleton, if_neg fun h => hne (Option.some.inj h)]
  rfl

theorem nextLine_cases (text : Bytes) :
    (text = [] ∧ nextLine text = none) ∨
    ∃ line rest, nextLine text = some (line, rest) ∧ csvLines text = line :: csvLines rest ∧
      rest.length < text.length := by
  by_cases hempty : text = []
  · subst hempty
    exact .inl ⟨rfl, rfl⟩
  refine .inr ?_
  unfold nextLine
  rw [if_neg hempty]
  by_cases hfeed : LINE_FEED ∈ text
  · obtain ⟨line, rest, rfl, hline⟩ := List.eq_append_cons_of_mem hfeed
    have htake : (line ++ LINE_FEED :: rest).takeWhile (fun c => c != LINE_FEED) = line := by
      have hother : ∀ c ∈ line, (c != LINE_FEED) = true := fun c hc => bne_iff_ne.mpr fun h => hline (h ▸ hc)
      rw [List.takeWhile_append_of_pos hother]
      exact List.append_nil line
    dsimp only
    rw [htake, List.drop_length_add_append]
    refine ⟨_, _, rfl, csvLines_append hline rest, ?_⟩
    rw [List.length_append, List.length_cons, List.drop_succ_cons, List.drop_zero]
    omega
  · have htake : text.takeWhile (fun c => c != LINE_FEED) = text :=
      List.takeWhile_eq_self_iff.mpr fun c hc => bne_iff_ne.mpr fun h => hfeed (h ▸ hc)
    dsimp only
    rw [htake, List.drop_eq_nil_of_le (Nat.le_succ _)]
    exact ⟨_, _, rfl, csvLines_last hfeed hempty, List.length_pos_iff.mpr hempty⟩

/-! ### Parsed lines -/

variable {c : UInt8} {start : Nat}

theorem findFrom_eq_some {i : Nat} (h : findFrom text c start = some i) :
    ∃ field rest, text.drop start = field ++ c :: rest ∧ c ∉ field ∧ i = start + field.length := by
  obtain ⟨j, hfind, rfl⟩ := Option.map_eq_some_iff.mp h
  obtain ⟨hj, hat, hbefore⟩ := List.findIdx?_eq_some_iff_getElem.mp hfind
  refine ⟨(text.drop start).take j, (text.drop start).drop (j + 1), ?_, fun hmem => ?_, ?_⟩
  · rw [← beq_iff_eq.mp hat, List.getElem_cons_drop, List.take_append_drop]
  · obtain ⟨k, hk, hck⟩ := List.mem_iff_getElem.mp hmem
    rw [List.length_take] at hk
    rw [List.getElem_take] at hck
    exact hbefore k (by omega) (beq_iff_eq.mpr hck)
  · rw [List.length_take, Nat.min_eq_left (Nat.le_of_lt hj)]

theorem findFrom_eq_none (h : findFrom text c start = none) :
    c ∉ text.drop start := by
  intro hmem
  have hnone := List.findIdx?_eq_none_iff.mp (Option.map_eq_none_iff.mp h) c hmem
  rw [beq_self_eq_true] at hnone
  cases hnone

section

variable {makeAddress : Bytes → Option IpAddress}

variable {range : Range}

/-- **An accepted line** has three fields: the bounds, of one family and in order, and a country. -/
theorem parseLine_spec {line : Bytes} {country : Bytes}
    (h : parseLine makeAddress line = some (range, country)) :
    ∃ first last, line.splitOn COMMA = [first, last, country] ∧
      addressBytes makeAddress first = some (range.first, range.ipv6) ∧
      addressBytes makeAddress last = some (range.last, range.ipv6) ∧ range.first ≤ range.last := by
  unfold parseLine at h
  obtain ⟨firstComma, hfirstComma, h⟩ := Option.bind_eq_some_iff.mp h
  obtain ⟨secondComma, hsecondComma, h⟩ := Option.bind_eq_some_iff.mp h
  obtain ⟨first, rest, hline, hfirst, hat⟩ := findFrom_eq_some hfirstComma
  rw [List.drop_zero] at hline
  rw [Nat.zero_add] at hat
  subst hline hat
  obtain ⟨last, tail, hrest, hlast, hat⟩ := findFrom_eq_some hsecondComma
  rw [List.drop_length_add_append, List.drop_succ_cons, List.drop_zero] at hrest
  subst hrest hat
  split at h
  · cases h
  next hshape =>
  rw [not_or, not_or, not_or] at hshape
  obtain ⟨hthird, -, -, hlength⟩ := hshape
  have hsecond : (first ++ COMMA :: (last ++ COMMA :: tail)).drop (first.length + 1 + last.length + 1) = tail := by
    rw [Nat.add_assoc, Nat.add_assoc, List.drop_length_add_append, Nat.add_comm 1, List.drop_succ_cons,
      List.drop_length_add_append]
    rfl
  have htail : COMMA ∉ tail := by
    have hnone := findFrom_eq_none (Option.not_isSome_iff_eq_none.mp hthird)
    rwa [hsecond] at hnone
  have hcountry : tail.take 2 = tail := by
    refine List.take_of_length_le ?_
    rw [not_not, List.length_append, List.length_cons, List.length_append, List.length_cons] at hlength
    omega
  have hfields : (first ++ COMMA :: (last ++ COMMA :: tail)).splitOn COMMA = [first, last, tail] := by
    rw [List.splitOn_append_cons_self_of_not_mem hfirst, List.splitOn_append_cons_self_of_not_mem hlast,
      List.splitOn_eq_singleton htail]
  have hmiddle : ((first ++ COMMA :: (last ++ COMMA :: tail)).drop (first.length + 1)).take
      (first.length + 1 + last.length - first.length - 1) = last := by
    rw [List.drop_length_add_append, List.drop_succ_cons, List.drop_zero, Nat.add_assoc, Nat.add_sub_cancel_left,
      Nat.add_sub_cancel_left, List.take_left]
  obtain ⟨low, hlow, h⟩ := Option.bind_eq_some_iff.mp h
  obtain ⟨high, hhigh, h⟩ := Option.bind_eq_some_iff.mp h
  rw [List.take_left] at hlow
  rw [hmiddle] at hhigh
  split at h
  · cases h
  next hbounds =>
  rw [not_or, not_not, not_lt] at hbounds
  dsimp only at h
  rw [hsecond, hcountry] at h
  split at h
  · obtain ⟨rfl, rfl⟩ := Prod.mk.inj (Option.some.inj h)
    refine ⟨first, last, hfields, hlow, ?_, hbounds.2⟩
    rw [hhigh, hbounds.1]
  · cases h

/-! ### The loop -/

variable {ranges : List Range}

/-- **What the loop keeps**: the ranges of the French lines, where every line is accepted. -/
theorem readRanges_spec {turns records : Nat} {text : Bytes}
    (h : readRanges makeAddress turns records text = some ranges) :
    (∀ line ∈ csvLines text, (parseLine makeAddress line).isSome = true) ∧
      ∀ range, range ∈ ranges ↔ ∃ line ∈ csvLines text, parseLine makeAddress line = some (range, FR) := by
  induction turns generalizing records text ranges with
  | zero => cases h
  | succ turns ih =>
    unfold readRanges at h
    rcases nextLine_cases text with ⟨rfl, hnext⟩ | ⟨line, rest, hnext, hlines, -⟩
    · rw [hnext] at h
      obtain rfl := Option.some.inj h
      rw [csvLines_nil]
      refine ⟨fun line hline => absurd hline List.not_mem_nil, fun range => ?_⟩
      constructor
      · intro hrange
        cases hrange
      · rintro ⟨line, hline, -⟩
        cases hline
    · rw [hnext] at h
      dsimp only at h
      split at h
      · cases h
      cases hparse : parseLine makeAddress line with
      | none =>
        rw [hparse] at h
        cases h
      | some parsed =>
        obtain ⟨first, country⟩ := parsed
        rw [hparse] at h
        obtain ⟨others, hothers, rfl⟩ := Option.map_eq_some_iff.mp h
        obtain ⟨haccepted, hmem⟩ := ih hothers
        rw [hlines]
        refine ⟨fun other hother => ?_, fun range => ?_⟩
        · rcases List.mem_cons.mp hother with rfl | hother
          · rw [hparse]
            rfl
          · exact haccepted other hother
        · rw [List.exists_mem_cons_iff, ← hmem, hparse, Option.some.injEq, Prod.mk.injEq]
          by_cases hfrench : country = FR
          · rw [if_pos hfrench, List.mem_cons, and_iff_left hfrench]
            exact or_congr_left eq_comm
          · rw [if_neg hfrench, or_iff_right fun h => hfrench h.2]

/-! ### The order of the ranges -/

/-- The place of a bound among those of both families. -/
def Range.firstKey (range : Range) : Bool ×ₗ FixedBytes 16 := toLex (range.ipv6, range.first)

def Range.lastKey (range : Range) : Bool ×ₗ FixedBytes 16 := toLex (range.ipv6, range.last)

theorem less_iff (left right : Range) : left.less right = true ↔ left.firstKey < right.firstKey := by
  unfold Range.less Range.firstKey
  rw [Prod.Lex.toLex_lt_toLex]
  by_cases hfamily : left.ipv6 = right.ipv6
  · rw [if_neg fun h => h hfamily, decide_eq_true_eq, hfamily]
    simp
  · rw [if_pos hfamily, decide_eq_true_eq]
    simp [hfamily]

theorem isChain_of_not_overlapping (hvalid : ∀ range ∈ ranges, range.first ≤ range.last)
    (hsorted : ranges.Pairwise fun a b => a.firstKey ≤ b.firstKey) (h : overlapping ranges = false) :
    ranges.IsChain fun a b => a.lastKey < b.firstKey := by
  induction ranges with
  | nil => exact List.isChain_nil
  | cons left ranges ih =>
    cases ranges with
    | nil => exact List.isChain_singleton left
    | cons right ranges =>
      obtain ⟨hbegin, hrest⟩ := List.pairwise_cons.mp hsorted
      unfold overlapping at h
      rw [Bool.or_eq_false_iff, decide_eq_false_iff_not] at h
      refine List.isChain_cons_cons.mpr ⟨?_, ih (fun r hr => hvalid r (List.mem_cons_of_mem _ hr)) hrest h.2⟩
      have hle := hbegin right List.mem_cons_self
      unfold Range.firstKey at hle
      unfold Range.lastKey Range.firstKey
      rw [Prod.Lex.toLex_le_toLex] at hle
      rw [Prod.Lex.toLex_lt_toLex]
      rcases hle with hlt | ⟨hsame, -⟩
      · exact .inl hlt
      · exact .inr ⟨hsame, not_le.mp fun hover => h.1 ⟨hsame, hover⟩⟩

variable {csv : Bytes}

/-- An accepted table: the ranges of its French lines, each of which ends before the next begins. -/
theorem loadDbIpCountryCsv_spec {computeSha256 : Bytes → Option (FixedBytes 32)}
    {expectedSha256 : FixedBytes 32} {issued : Option Int} {today : Int} {dataset : FrenchIpDataset}
    (h : loadDbIpCountryCsv makeAddress computeSha256 (some csv) expectedSha256 issued today = some dataset) :
    (∀ line ∈ csvLines csv, (parseLine makeAddress line).isSome = true) ∧
    (∀ range, range ∈ dataset.ranges ↔ ∃ line ∈ csvLines csv, parseLine makeAddress line = some (range, FR)) ∧
    (∀ range ∈ dataset.ranges, range.firstKey ≤ range.lastKey) ∧
    dataset.ranges.Pairwise fun a b => a.lastKey < b.firstKey := by
  unfold loadDbIpCountryCsv at h
  obtain ⟨first, -, h⟩ := Option.bind_eq_some_iff.mp h
  split at h
  · cases h
  rw [Option.bind_eq_bind, Option.bind_some] at h
  split at h
  · cases h
  split at h
  · cases h
  obtain ⟨ranges, hranges, h⟩ := Option.bind_eq_some_iff.mp h
  split at h
  · cases h
  dsimp only at h
  split at h
  · cases h
  next hoverlap =>
  obtain rfl := Option.some.inj h
  obtain ⟨haccepted, hmem⟩ := readRanges_spec hranges
  have hvalid : ∀ range ∈ ranges.mergeSort fun a b => !b.less a, range.first ≤ range.last := by
    intro range hrange
    obtain ⟨line, -, hparse⟩ := (hmem range).mp (List.mem_mergeSort.mp hrange)
    obtain ⟨-, -, -, -, -, hle⟩ := parseLine_spec hparse
    exact hle
  have hvalidKey : ∀ range ∈ ranges.mergeSort fun a b => !b.less a, range.firstKey ≤ range.lastKey := by
    intro range hrange
    exact Prod.Lex.toLex_le_toLex.mpr (.inr ⟨rfl, hvalid range hrange⟩)
  have hnotLess : ∀ a b : Range, (!b.less a) = true ↔ a.firstKey ≤ b.firstKey := by
    intro a b
    rw [Bool.not_eq_true', ← Bool.not_eq_true, less_iff, not_lt]
  have hsorted : (ranges.mergeSort fun a b => !b.less a).Pairwise fun a b => a.firstKey ≤ b.firstKey := by
    refine (List.pairwise_mergeSort (fun a b c hab hbc => ?_) (fun a b => ?_) ranges).imp fun hle => (hnotLess _ _).mp hle
    · rw [hnotLess] at hab hbc ⊢
      exact hab.trans hbc
    · rw [Bool.or_eq_true, hnotLess, hnotLess]
      exact le_total _ _
  refine ⟨haccepted, fun range => ?_, hvalidKey, ?_⟩
  · rw [List.mem_mergeSort, hmem]
  · exact pairwise_of_isChain hvalidKey
      (isChain_of_not_overlapping hvalid hsorted (eq_false_of_ne_true hoverlap))

theorem isFrench_eq (dataset : FrenchIpDataset) (numericAddress : Bytes) :
    dataset.isFrench makeAddress numericAddress = true ↔ ∃ bytes ipv6,
      addressBytes makeAddress numericAddress = some (bytes, ipv6) ∧
      ∃ found, dataset.ranges[lowerBound (fun r : Range => decide (r.lastKey < toLex (ipv6, bytes))) dataset.ranges]? =
        some found ∧ found.ipv6 = ipv6 ∧ found.first ≤ bytes ∧ bytes ≤ found.last := by
  unfold FrenchIpDataset.isFrench
  cases haddress : addressBytes makeAddress numericAddress with
  | none =>
    refine iff_of_false Bool.false_ne_true ?_
    rintro ⟨bytes, ipv6, hsome, -⟩
    cases hsome
  | some key =>
    obtain ⟨bytes, ipv6⟩ := key
    have hbefore : (fun range : Range => decide (range.ipv6 < ipv6 ∨ range.ipv6 = ipv6 ∧ range.last < bytes)) =
        fun range : Range => decide (range.lastKey < toLex (ipv6, bytes)) := by
      funext range
      unfold Range.lastKey
      rw [decide_eq_decide, Prod.Lex.toLex_lt_toLex]
    dsimp only
    rw [hbefore]
    constructor
    · intro hfound
      refine ⟨bytes, ipv6, rfl, ?_⟩
      cases hat : dataset.ranges[lowerBound (fun r : Range => decide (r.lastKey < toLex (ipv6, bytes))) dataset.ranges]? with
      | none =>
        rw [hat] at hfound
        cases hfound
      | some found =>
        rw [hat] at hfound
        exact ⟨found, rfl, of_decide_eq_true hfound⟩
    · rintro ⟨bytes', ipv6', hsame, found, hat, hrange⟩
      obtain ⟨rfl, rfl⟩ := Prod.mk.inj (Option.some.inj hsame)
      rw [hat]
      exact decide_eq_true hrange

variable {bytes : FixedBytes 16} {ipv6 : Bool}

theorem between_iff :
    range.firstKey ≤ toLex (ipv6, bytes) ∧ toLex (ipv6, bytes) ≤ range.lastKey ↔
      range.ipv6 = ipv6 ∧ range.first ≤ bytes ∧ bytes ≤ range.last := by
  unfold Range.firstKey Range.lastKey
  rw [Prod.Lex.toLex_le_toLex, Prod.Lex.toLex_le_toLex]
  constructor
  · rintro ⟨hlt | ⟨hsame, hfirst⟩, hlt' | ⟨hsame', hlast⟩⟩
    · exact absurd hlt' (lt_asymm hlt)
    · exact absurd hsame' (ne_of_gt hlt)
    · exact absurd hsame (ne_of_gt hlt')
    · exact ⟨hsame, hfirst, hlast⟩
  · rintro ⟨rfl, hfirst, hlast⟩
    exact ⟨.inr ⟨rfl, hfirst⟩, .inr ⟨rfl, hlast⟩⟩

theorem exists_line_iff (haccepted : ∀ line ∈ csvLines csv, (parseLine makeAddress line).isSome = true) :
    (∃ range, (∃ line ∈ csvLines csv, parseLine makeAddress line = some (range, FR)) ∧
      range.ipv6 = ipv6 ∧ range.first ≤ bytes ∧ bytes ≤ range.last) ↔
    ∃ line ∈ csvLines csv, ∃ first last low high, line.splitOn COMMA = [first, last, FR] ∧
      addressBytes makeAddress first = some (low, ipv6) ∧ addressBytes makeAddress last = some (high, ipv6) ∧
      low ≤ bytes ∧ bytes ≤ high := by
  constructor
  · rintro ⟨range, ⟨line, hline, hparse⟩, rfl, hfirst, hlast⟩
    obtain ⟨first, last, hfields, hlow, hhigh, -⟩ := parseLine_spec hparse
    exact ⟨line, hline, first, last, range.first, range.last, hfields, hlow, hhigh, hfirst, hlast⟩
  · rintro ⟨line, hline, first, last, low, high, hfields, hlow, hhigh, hfirst, hlast⟩
    obtain ⟨⟨range, country⟩, hparse⟩ := Option.isSome_iff_exists.mp (haccepted line hline)
    obtain ⟨first', last', hfields', hlow', hhigh', -⟩ := parseLine_spec hparse
    rw [hfields, List.cons.injEq, List.cons.injEq, List.cons.injEq] at hfields'
    obtain ⟨rfl, rfl, rfl, -⟩ := hfields'
    rw [hlow] at hlow'
    rw [hhigh] at hhigh'
    obtain ⟨rfl, rfl⟩ := Prod.mk.inj (Option.some.inj hlow')
    obtain ⟨rfl, -⟩ := Prod.mk.inj (Option.some.inj hhigh')
    exact ⟨range, ⟨line, hline, hparse⟩, rfl, hfirst, hlast⟩

end

/-- **Country admission.**  The lookup in an accepted table says of an address whether it lies in
    the range of a French line of its family. -/
theorem isFrench_iff {makeAddress : Bytes → Option IpAddress} {computeSha256 : Bytes → Option (FixedBytes 32)}
    {csv : Bytes} {expectedSha256 : FixedBytes 32} {issued : Option Int} {today : Int} {dataset : FrenchIpDataset}
    (h : loadDbIpCountryCsv makeAddress computeSha256 (some csv) expectedSha256 issued today = some dataset)
    (numericAddress : Bytes) :
    dataset.isFrench makeAddress numericAddress = true ↔ ∃ bytes ipv6,
      addressBytes makeAddress numericAddress = some (bytes, ipv6) ∧
      ∃ line ∈ csvLines csv, ∃ first last low high, line.splitOn COMMA = [first, last, FR] ∧
        addressBytes makeAddress first = some (low, ipv6) ∧ addressBytes makeAddress last = some (high, ipv6) ∧
        low ≤ bytes ∧ bytes ≤ high := by
  obtain ⟨haccepted, hmem, hvalid, hordered⟩ := loadDbIpCountryCsv_spec h
  rw [isFrench_eq]
  refine exists_congr fun bytes => exists_congr fun ipv6 => and_congr_right fun _ => ?_
  rw [← exists_line_iff haccepted]
  have hsearch := lowerBound_range hvalid hordered (toLex (ipv6, bytes))
  simp only [between_iff, hmem] at hsearch
  exact hsearch

/-- The table of `1.1.1.1,1.1.1.9,FR` and `2.2.2.2,2.2.2.9,US`. -/
def sampleCsv : Bytes :=
  [49, 46, 49, 46, 49, 46, 49, 44, 49, 46, 49, 46, 49, 46, 57, 44, 70, 82, 10,
    50, 46, 50, 46, 50, 46, 50, 44, 50, 46, 50, 46, 50, 46, 57, 44, 85, 83, 13, 10]

/-- The addresses of the table, and the mapped form `::ffff:1.1.1.5` of one between. -/
def sampleAddress (text : Bytes) : Option IpAddress :=
  [([49, 46, 49, 46, 49, 46, 49], IpAddress.v4 ⟨[1, 1, 1, 1], rfl⟩), ([49, 46, 49, 46, 49, 46, 57], .v4 ⟨[1, 1, 1, 9], rfl⟩),
    ([50, 46, 50, 46, 50, 46, 50], .v4 ⟨[2, 2, 2, 2], rfl⟩), ([50, 46, 50, 46, 50, 46, 57], .v4 ⟨[2, 2, 2, 9], rfl⟩),
    ([58, 58, 102, 102, 102, 102, 58, 49, 46, 49, 46, 49, 46, 53],
      .v6 ⟨[0, 0, 0, 0, 0, 0, 0, 0, 0, 0, 255, 255, 1, 1, 1, 5], rfl⟩)].lookup text

theorem isFrench_iff_sample : ∃ dataset,
    loadDbIpCountryCsv sampleAddress (fun _ => some (FixedBytes.zero 32)) (some sampleCsv) (FixedBytes.zero 32) (some 0) 45 =
      some dataset ∧
    dataset.isFrench sampleAddress [58, 58, 102, 102, 102, 102, 58, 49, 46, 49, 46, 49, 46, 53] = true := by
  have hranges : readRanges sampleAddress (sampleCsv.length + 1) 0 sampleCsv =
      some [{ first := paddedV4 ⟨[1, 1, 1, 1], rfl⟩, last := paddedV4 ⟨[1, 1, 1, 9], rfl⟩, ipv6 := false }] := rfl
  have hload : loadDbIpCountryCsv sampleAddress (fun _ => some (FixedBytes.zero 32)) (some sampleCsv) (FixedBytes.zero 32)
      (some 0) 45 = some { ranges := [{ first := paddedV4 ⟨[1, 1, 1, 1], rfl⟩, last := paddedV4 ⟨[1, 1, 1, 9], rfl⟩, ipv6 := false }] } := by
    unfold loadDbIpCountryCsv
    rw [Option.bind_eq_bind, Option.bind_some, if_neg (by decide), Option.bind_eq_bind, Option.bind_some,
      if_neg (by decide), if_neg (by decide), hranges, Option.bind_eq_bind, Option.bind_some, if_neg (List.cons_ne_nil _ _),
      List.mergeSort_singleton]
    rfl
  refine ⟨_, hload, (isFrench_iff hload _).mpr ?_⟩
  refine ⟨paddedV4 ⟨[1, 1, 1, 5], rfl⟩, false, rfl, _, List.mem_cons_self, [49, 46, 49, 46, 49, 46, 49],
    [49, 46, 49, 46, 49, 46, 57], paddedV4 ⟨[1, 1, 1, 1], rfl⟩, paddedV4 ⟨[1, 1, 1, 9], rfl⟩, rfl, rfl, rfl, ?_, ?_⟩
  · decide
  · decide

end Cybou.P2p

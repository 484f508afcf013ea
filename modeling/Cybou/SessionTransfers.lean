import Cybou.PeerSession

/-! # What is sent over a session is what is received (`p2p/session.cpp`)

A frame is read back from its bytes, and the data frames behind an announcement are joined
to the bytes that were announced.  On any other stream a receiver reads at most as many data
frames as bytes are announced, since it refuses an empty one.
-/

namespace Cybou

open Library

namespace P2p

/-! ### Frames -/

namespace MessageType

theorem ofCode_code (type : MessageType) : ofCode type.code = some type := by
  cases type <;> rfl

theorem ofCode_eq_some {code : UInt8} {type : MessageType} : ofCode code = some type ↔ code = type.code := by
  constructor
  · intro h
    have hfound := List.find?_some h
    exact (of_decide_eq_true hfound).symm
  · rintro rfl
    exact ofCode_code type

end MessageType

theorem readHeader_exact : Reader.Exact readHeader (fun head => header head.1 head.2)
    (fun head => head.2 ≤ MAX_FRAME_PAYLOAD) := by
  rintro b ⟨type, size⟩ r
  have hmax : MAX_FRAME_PAYLOAD < 2 ^ 32 := by decide
  simp only [readHeader, (Reader.literal_exact MAGIC).bind, Reader.u8_exact.bind, Reader.ofOption_bind,
    Reader.count_exact.bind, Reader.require_bind, Reader.pure_eq_some, MessageType.ofCode_eq_some, header]
  constructor
  · rintro ⟨_, _, -, rfl, _, _, -, rfl, type', rfl, size', _, -, rfl, hsize, heq, rfl⟩
    cases heq
    exact ⟨hsize, by simp only [List.append_assoc]⟩
  · rintro ⟨hsize, rfl⟩
    exact ⟨(), _, trivial, List.append_assoc _ _ _ ▸ List.append_assoc _ _ _ ▸ rfl, type.code, _, trivial, rfl, type,
      rfl, size, _, by omega, rfl, hsize, rfl, rfl⟩

variable {b : Bytes} {frame : Frame}

theorem length_header (type : MessageType) (size : Nat) : (header type size).length = HEADER_SIZE := by
  simp only [header, List.length_append, length_le32Of, List.length_singleton]
  rfl

theorem readFrame_append (h : encodeFrame frame = some b) (rest : Bytes) :
    readFrame (b ++ rest) = .ok (frame, rest) := by
  rw [encodeFrame, Option.ite_none_right_eq_some, Option.some.injEq] at h
  obtain ⟨hmax, rfl⟩ := h
  have hread := (readHeader_exact _ (frame.type, frame.payload.length) (frame.payload ++ rest)).mpr
    ⟨hmax, List.append_assoc _ _ _⟩
  have hlength := length_header frame.type frame.payload.length
  rw [readFrame, if_neg (by simp only [List.length_append]; omega), hread]
  dsimp only
  rw [if_neg (by simp only [List.length_append]; omega), List.take_left, List.drop_left]

theorem framesWithin_append (h : encodeFrame frame = some b) (turns : Nat)
    (rest : Bytes) : framesWithin (turns + 1) (b ++ rest) =
      { framesWithin turns rest with frames := frame :: (framesWithin turns rest).frames } := by
  rw [framesWithin, readFrame_append h]

variable {frames : List Frame}

variable {wire payload : Bytes}

theorem framesWithin_writeFrames (h : writeFrames frames = some wire)
    {turns : Nat} (hturns : wire.length ≤ turns) :
    framesWithin turns wire = { frames, ending := .unavailable } := by
  induction frames generalizing wire turns with
  | nil =>
    cases h
    cases turns with
    | zero => rfl
    | succ turns => rfl
  | cons frame frames ih =>
    simp only [writeFrames, Option.bind_eq_bind, Option.bind_eq_some_iff, Option.pure_def, Option.some.injEq] at h
    obtain ⟨b, hb, later, hlater, rfl⟩ := h
    have hpos : 0 < b.length := by
      rw [encodeFrame, Option.ite_none_right_eq_some, Option.some.injEq] at hb
      obtain ⟨-, rfl⟩ := hb
      rw [List.length_append, length_header, HEADER_SIZE]
      omega
    rw [List.length_append] at hturns
    obtain ⟨turns, rfl⟩ : ∃ turns', turns = turns' + 1 := ⟨turns - 1, by omega⟩
    rw [framesWithin_append hb, ih hlater (by omega)]

theorem framesOf_writeFrames (h : writeFrames frames = some wire) :
    framesOf wire = { frames, ending := .unavailable } :=
  framesWithin_writeFrames h le_rfl

theorem writeFrames_isSome (h : ∀ frame ∈ frames, frame.payload.length ≤ MAX_FRAME_PAYLOAD) :
    ∃ wire, writeFrames frames = some wire := by
  induction frames with
  | nil => exact ⟨[], rfl⟩
  | cons frame frames ih =>
    obtain ⟨wire, hwire⟩ := ih fun f hf => h f (List.mem_cons_of_mem _ hf)
    rw [writeFrames, encodeFrame, if_pos (h frame List.mem_cons_self), hwire]
    exact ⟨_, rfl⟩

/-! ### Data frames -/

variable {type : MessageType}

theorem sendData_fits (h : frame ∈ sendData type b) :
    frame.payload.length ≤ MAX_FRAME_PAYLOAD := by
  obtain ⟨payload, hpayload, rfl⟩ := List.mem_map.mp h
  exact length_le_of_mem_pieces hpayload

/-- **The data frames of some bytes are joined to these bytes, whatever follows.** -/
theorem receiveData_sendData (type : MessageType) (b : Bytes) (rest : List Frame) :
    receiveData type b.length (sendData type b ++ rest) = ⟨.complete, b, rest⟩ := by
  have hflatten := pieces_flatten (show 0 < MAX_FRAME_PAYLOAD by decide) b
  have hjoin : receiveData type b.length (sendData type b ++ rest) =
      ⟨.complete, [] ++ (pieces MAX_FRAME_PAYLOAD b).flatten, rest⟩ :=
    join_append _ rest (by simp [sendData]) (fun p hp => ne_nil_of_mem_pieces hp)
      (by rw [hflatten, List.length_nil, Nat.zero_add])
  rwa [hflatten, List.nil_append] at hjoin

theorem receiveData_reads (type : MessageType) (size : Nat) (frames : List Frame) :
    ∃ used, frames = used ++ (receiveData type size frames).rest ∧ used.length ≤ size :=
  join_reads frames (Nat.zero_le size)

/-- What stands behind a complete transfer: the announced number of bytes, and the data frames
    they came in. -/
structure Transferred (type : MessageType) (size : Nat) (b : Bytes) (used : List Frame) : Prop where
  length : b.length = size
  frames : ∀ frame ∈ used, frame.type = type
  joined : (used.map Frame.payload).flatten = b
  reads : used.length ≤ size

variable {size : Nat}

theorem receiveData_complete {rest : List Frame} (h : receiveData type size frames = ⟨.complete, b, rest⟩) :
    ∃ used, frames = used ++ rest ∧ Transferred type size b used := by
  obtain ⟨hlength, used, parts, hused, hparts, rfl⟩ := join_complete (Nat.zero_le size) h
  obtain ⟨used', hused', hreads⟩ := receiveData_reads type size frames
  rw [h] at hused'
  obtain rfl : used = used' := List.append_cancel_right (hused.symm.trans hused')
  have htypes : (∀ frame ∈ used, frame.type = type) ∧ used.map Frame.payload = parts := by
    clear hlength hused hreads h hused'
    induction used generalizing parts with
    | nil => exact ⟨nofun, (List.map_eq_nil_iff.mp hparts.symm).symm⟩
    | cons frame used ih =>
      cases parts with
      | nil => cases hparts
      | cons p parts =>
        rw [List.map_cons, List.map_cons, List.cons.injEq, Option.ite_none_right_eq_some, Option.some.injEq] at hparts
        obtain ⟨⟨htype, rfl⟩, htail⟩ := hparts
        obtain ⟨htypes, rfl⟩ := ih _ htail
        exact ⟨List.forall_mem_cons.mpr ⟨htype, htypes⟩, rfl⟩
  exact ⟨used, hused, hlength, htypes.1, by rw [htypes.2, List.nil_append], hreads⟩

/-! ### Announcements -/

theorem whole_pair {α β : Type} {p : Reader α} {q : Reader β} {enc : α → Bytes} {enc' : β → Bytes}
    (hp : Reader.Exact p enc fun _ => True) (hq : Reader.Exact q enc' fun _ => True) {a : α} {c : β} :
    Reader.whole (do return (← p, ← q)) payload = some (a, c) ↔ payload = enc a ++ enc' c := by
  rw [Reader.whole_eq_some, hp.bind]
  simp only [hq.bind, Reader.pure_eq_some, true_and]
  constructor
  · rintro ⟨_, _, rfl, _, _, rfl, heq, rfl⟩
    cases heq
    rw [List.append_nil]
  · rintro rfl
    exact ⟨a, _, rfl, c, [], (List.append_nil _).symm, rfl, rfl⟩

variable {height workNonce : UInt64}

theorem readBlockMeta_eq_some {size : UInt32} :
    readBlockMeta frame = some (height, size) ↔ frame = { type := .blockMeta, payload := le64 height ++ le32 size } := by
  obtain ⟨type, payload⟩ := frame
  rw [readBlockMeta, Option.ite_none_left_eq_some, not_not, whole_pair Reader.u64_exact Reader.u32_exact, Frame.mk.injEq]

theorem readOperationMeta_eq_some {size : UInt32} :
    readOperationMeta frame = some (size, workNonce) ↔
      frame = { type := .opMeta, payload := le32 size ++ le64 workNonce } := by
  obtain ⟨type, payload⟩ := frame
  rw [readOperationMeta, Option.ite_none_left_eq_some, not_not, whole_pair Reader.u32_exact Reader.u64_exact,
    Frame.mk.injEq]

theorem toNat_ofNat_of_le {n limit : Nat} (h : n ≤ limit) (hlimit : limit < 2 ^ 32) : (UInt32.ofNat n).toNat = n :=
  UInt32.toNat_ofNat_of_lt' (Nat.lt_of_le_of_lt h hlimit)

/-! ### Operations -/

theorem receiveOperation_sendOperation {admitIngress : Nat → Bool}
    (h : sendOperation b workNonce = some frames) (hne : b ≠ [])
    (hroom : admitIngress b.length = true) (rest : List Frame) :
    ∃ announced data, frames = announced :: data ∧
      receiveOperation admitIngress announced (data ++ rest) = (some { bytes := b, workNonce }, rest) := by
  rw [sendOperation, Option.ite_none_left_eq_some, Option.some.injEq] at h
  obtain ⟨hmax, rfl⟩ := h
  have hsize := toNat_ofNat_of_le (Nat.not_lt.mp hmax) (by decide)
  have hpos := List.length_pos_iff.mpr hne
  have hannounced : readOperationMeta { type := .opMeta, payload := le32Of b.length ++ le64 workNonce } =
      some (UInt32.ofNat b.length, workNonce) := readOperationMeta_eq_some.mpr rfl
  refine ⟨_, _, rfl, ?_⟩
  rw [receiveOperation, hannounced]
  dsimp only
  rw [hsize, if_neg, receiveData_sendData]
  rintro (hzero | hlarge | hrefused)
  · rw [hzero, UInt32.toNat_zero] at hsize
    omega
  · exact hmax hlarge
  · rw [hroom] at hrefused
    cases hrefused

def operationSize (announced : Frame) : Nat := ((readOperationMeta announced).map (·.1.toNat)).getD 0

theorem receiveOperation_any (admitIngress : Nat → Bool) (announced : Frame) (frames : List Frame) :
    ∃ used, frames = used ++ (receiveOperation admitIngress announced frames).2 ∧
      used.length ≤ operationSize announced ∧
      ∀ received, (receiveOperation admitIngress announced frames).1 = some received →
        Transferred .opData (operationSize announced) received.bytes used := by
  rw [receiveOperation, operationSize]
  cases readOperationMeta announced with
  | none => exact ⟨[], rfl, Nat.zero_le _, nofun⟩
  | some read =>
    obtain ⟨size, workNonce⟩ := read
    dsimp only
    split
    · exact ⟨[], rfl, Nat.zero_le _, nofun⟩
    obtain ⟨used, hused, hreads⟩ := receiveData_reads .opData size.toNat frames
    rcases hjoin : receiveData .opData size.toNat frames with ⟨_ | _ | _, whole, rest⟩
    · obtain ⟨used, hused, htransfer⟩ := receiveData_complete hjoin
      exact ⟨used, hused, htransfer.reads, fun received hreceived => by cases hreceived; exact htransfer⟩
    · rw [hjoin] at hused
      exact ⟨used, hused, hreads, nofun⟩
    · rw [hjoin] at hused
      exact ⟨used, hused, hreads, nofun⟩

/-! ### Stored chunks -/

variable {chunk : AuthorizedChunk}

theorem readChunkInit_writeChunkInit (h : chunk.proof.siblings.length ≤ 32) :
    readChunkInit.whole (writeChunkInit chunk) =
      some (chunk.publicationOperationId, chunk.chunkId, chunk.proof, UInt32.ofNat chunk.storedBytes.length) := by
  have hcount : (UInt8.ofNat chunk.proof.siblings.length).toNat = chunk.proof.siblings.length :=
    UInt8.toNat_ofNat_of_lt' (Nat.lt_of_le_of_lt h (by decide))
  rw [Reader.whole_eq_some, readChunkInit, writeChunkInit]
  simp only [List.append_assoc]
  rw [(Reader.fixed_exact 32).bind_append trivial, (Reader.fixed_exact 32).bind_append trivial,
    Reader.u32_exact.bind_append trivial, Reader.u8_exact.bind_append trivial, Reader.require_bind]
  refine ⟨by omega, ?_⟩
  rw [hcount, (Reader.repeatN_exact (Reader.fixed_exact 32) _).bind_append ⟨rfl, fun _ _ => trivial⟩]
  rw [Reader.u32_exact.bind]
  exact ⟨_, [], trivial, (List.append_nil _).symm, rfl⟩

theorem length_le_of_validStoredSize (h : validStoredSize size = true) :
    ENCRYPTED_CHUNK_MIN_STORED_BYTES ≤ size ∧ size ≤ ENCRYPTED_CHUNK_MAX_STORED_BYTES := by
  rw [validStoredSize, Bool.and_eq_true, decide_eq_true_eq, decide_eq_true_eq] at h
  exact h

theorem toNat_storedSize (h : validStoredSize size = true) : (UInt32.ofNat size).toNat = size :=
  toNat_ofNat_of_le (length_le_of_validStoredSize h).2 (by decide)

theorem servePut_putAuthorizedChunk {admitStorage : Nat → Bool} (h : putAuthorizedChunk chunk = some frames)
    (hroom : admitStorage (chunk.storedBytes.length + (writeChunkInit chunk).length) = true) (rest : List Frame) :
    ∃ request data, frames = request :: data ∧
      servePutAuthorizedChunk admitStorage request (data ++ rest) = (some chunk, rest) := by
  rw [putAuthorizedChunk, Option.ite_none_left_eq_some, Option.some.injEq] at h
  obtain ⟨hvalid, rfl⟩ := h
  simp only [not_or, Bool.not_eq_true, Bool.not_eq_false, Nat.not_lt] at hvalid
  have hsize := toNat_storedSize hvalid.2.2.1
  refine ⟨_, _, rfl, ?_⟩
  rw [servePutAuthorizedChunk, readChunkInit_writeChunkInit hvalid.2.2.2]
  dsimp only
  rw [hsize, hvalid.2.2.1, hroom, if_neg (by decide), receiveData_sendData]

/-- The size that a `PUT_AUTHORIZED_CHUNK` announces. -/
def putSize (request : Frame) : Nat := ((readChunkInit.whole request.payload).map (·.2.2.2.toNat)).getD 0

theorem servePut_any (admitStorage : Nat → Bool) (request : Frame) (frames : List Frame) :
    ∃ used, frames = used ++ (servePutAuthorizedChunk admitStorage request frames).2 ∧
      used.length ≤ putSize request ∧
      ∀ chunk, (servePutAuthorizedChunk admitStorage request frames).1 = some chunk →
        Transferred .authorizedChunkData (putSize request) chunk.storedBytes used := by
  rw [servePutAuthorizedChunk, putSize]
  cases readChunkInit.whole request.payload with
  | none => exact ⟨[], rfl, Nat.zero_le _, nofun⟩
  | some read =>
    obtain ⟨publicationOperationId, chunkId, proof, size⟩ := read
    dsimp only
    split
    · exact ⟨[], rfl, Nat.zero_le _, nofun⟩
    obtain ⟨used, hused, hreads⟩ := receiveData_reads .authorizedChunkData size.toNat frames
    rcases hjoin : receiveData .authorizedChunkData size.toNat frames with ⟨_ | _ | _, whole, rest⟩
    · obtain ⟨used, hused, htransfer⟩ := receiveData_complete hjoin
      exact ⟨used, hused, htransfer.reads, fun chunk hchunk => by cases hchunk; exact htransfer⟩
    · rw [hjoin] at hused
      exact ⟨used, hused, hreads, nofun⟩
    · rw [hjoin] at hused
      exact ⟨used, hused, hreads, nofun⟩

section

variable [Crypto]

theorem receiveChunkById_serve {admitStorage : Nat → Bool} {finalizedChunkSize : ChunkId → Option UInt64}
    {getFinalizedChunk : ChunkId → Option Bytes} {chunkId : ChunkId} {b : Bytes} {request : Frame}
    (hrequest : getChunkRequest chunkId = some request) (hchunk : getFinalizedChunk chunkId = some b)
    (hstored : ChunkBlobStore.readBlob b chunkId = some b)
    (hroom : admitStorage (((finalizedChunkSize chunkId).getD 0).toNat + 32) = true) (rest : List Frame) :
    ∃ frames, serveGetChunkById admitStorage finalizedChunkSize getFinalizedChunk request = (frames, true) ∧
      receiveChunkById chunkId (frames ++ rest) = (.found b, rest) := by
  rw [getChunkRequest, Option.ite_none_left_eq_some, Option.some.injEq] at hrequest
  obtain ⟨-, rfl⟩ := hrequest
  rw [ChunkBlobStore.readBlob, Option.ite_none_left_eq_some, not_or, Bool.not_eq_false, not_not] at hstored
  obtain ⟨⟨hvalid, hid⟩, -⟩ := hstored
  have hsize := toNat_storedSize hvalid
  have hread : (Reader.fixed 32).whole chunkId.1 = some chunkId := (Reader.fixed_exact 32).whole.mpr ⟨trivial, rfl⟩
  have hanswer : Reader.whole (do return (← Reader.u8, ← Reader.u32)) ([1] ++ le32Of b.length) =
      some (1, UInt32.ofNat b.length) := (whole_pair Reader.u8_exact Reader.u32_exact).mpr rfl
  refine ⟨{ type := .chunkAdmissionResult, payload := [1] ++ le32Of b.length } :: sendData .chunkData b, ?_, ?_⟩
  · rw [serveGetChunkById, hread]
    dsimp only
    rw [chunkId.2, hroom, if_neg (by decide), hchunk]
  · rw [List.cons_append, receiveChunkById, if_neg (not_not.mpr rfl)]
    dsimp only
    rw [hanswer]
    dsimp only
    rw [if_neg (by decide), if_neg (by decide), hsize, hvalid, if_neg (by decide), receiveData_sendData]
    dsimp only
    rw [if_pos hid]

/-- The size that the answer to `GET_CHUNK_BY_ID` announces. -/
def answerSize (answer : Frame) : Nat :=
  ((Reader.whole (do return (← Reader.u8, ← Reader.u32)) answer.payload).map (·.2.toNat)).getD 0

theorem receiveChunkById_any (chunkId : ChunkId) (answer : Frame) (frames : List Frame) :
    ∃ used, frames = used ++ (receiveChunkById chunkId (answer :: frames)).2 ∧ used.length ≤ answerSize answer ∧
      ∀ b, (receiveChunkById chunkId (answer :: frames)).1 = .found b →
        Transferred .chunkData (answerSize answer) b used ∧ computeChunkId b = chunkId := by
  rw [receiveChunkById, answerSize]
  split
  · exact ⟨[], rfl, Nat.zero_le _, fun _ h => by cases h⟩
  cases Reader.whole (do return (← Reader.u8, ← Reader.u32)) answer.payload with
  | none => exact ⟨[], rfl, Nat.zero_le _, fun _ h => by cases h⟩
  | some read =>
    obtain ⟨held, size⟩ := read
    dsimp only
    split
    · exact ⟨[], rfl, Nat.zero_le _, fun _ h => by cases h⟩
    split
    · refine ⟨[], rfl, Nat.zero_le _, fun b hb => ?_⟩
      dsimp only at hb
      split at hb
      · cases hb
      · cases hb
    split
    · exact ⟨[], rfl, Nat.zero_le _, fun _ h => by cases h⟩
    obtain ⟨used, hused, hreads⟩ := receiveData_reads .chunkData size.toNat frames
    rcases hjoin : receiveData .chunkData size.toNat frames with ⟨_ | _ | _, whole, rest⟩
    · obtain ⟨used, hused, htransfer⟩ := receiveData_complete hjoin
      refine ⟨used, hused, htransfer.reads, fun b hb => ?_⟩
      dsimp only at hb
      split at hb
      next hid =>
        cases hb
        exact ⟨htransfer, hid⟩
      · cases hb
    · rw [hjoin] at hused
      exact ⟨used, hused, hreads, fun _ h => by cases h⟩
    · rw [hjoin] at hused
      exact ⟨used, hused, hreads, fun _ h => by cases h⟩

end

/-! ### Blocks -/

theorem length_le_of_sendBlock
    (h : sendBlock height b = some frames) : b ≠ [] ∧ b.length ≤ MAX_FINALIZED_BLOCK_BYTES := by
  rw [sendBlock, Option.ite_none_left_eq_some, not_or, Nat.not_lt] at h
  exact h.1

def Announces (height : UInt64) (b : Bytes) (frames : List Frame) : Prop :=
  ∃ (size : UInt32) (data : List Frame), size ≠ 0 ∧ size.toNat ≤ MAX_FINALIZED_BLOCK_BYTES ∧
    frames = { type := .blockMeta, payload := le64 height ++ le32 size } :: data ∧
    Transferred .blockData size.toNat b data

theorem Announces.length_le (h : Announces height b frames) :
    frames.length ≤ MAX_FINALIZED_BLOCK_BYTES + 1 := by
  obtain ⟨size, data, -, hmax, rfl, htransfer⟩ := h
  have := htransfer.reads
  rw [List.length_cons]
  omega

section

variable {firstHeight : UInt64} {maxBlocks : UInt8} {consume : BlockConsumer} {ending : ReadStatus}
  {count : UInt8} {handed : List (UInt64 × Bytes)}

/-- What one turn of the loop does: it stops without a block, or a block has come in that the
    consumer refuses or takes. -/
theorem receiveBlocks_cases (frames : List Frame) :
    let batch := receiveBlocks firstHeight maxBlocks consume ending count handed frames
    let height := firstHeight + count.toUInt64
    (batch.handed = handed ∧ batch.result.count = count ∧ ∃ used, frames = used ++ batch.rest ∧
      (used.length ≤ 1 ∨ count < maxBlocks ∧ used.length ≤ MAX_FINALIZED_BLOCK_BYTES + 1)) ∨
    count < maxBlocks ∧ ∃ block used rest, frames = used ++ rest ∧ Announces height block used ∧
      (consume handed height block = false ∧
          batch = { result := { status := .invalidResponse, count }, handed := handed ++ [(height, block)], rest } ∨
        consume handed height block = true ∧
          batch = receiveBlocks firstHeight maxBlocks consume ending (count + 1) (handed ++ [(height, block)]) rest) := by
  intro batch height
  cases frames with
  | nil =>
    have hbatch : batch = { result := { status := FrameStream.failure ending, count }, handed, rest := [] } := by
      change receiveBlocks firstHeight maxBlocks consume ending count handed [] = _
      rw [receiveBlocks]
    exact .inl (hbatch ▸ ⟨rfl, rfl, [], rfl, .inl (Nat.zero_le 1)⟩)
  | cons frame frames =>
    -- A turn that looks at one frame only.
    have hone : ∀ status, batch = { result := { status, count }, handed, rest := frames } →
        batch.handed = handed ∧ batch.result.count = count ∧ ∃ used, frame :: frames = used ++ batch.rest ∧
          (used.length ≤ 1 ∨ count < maxBlocks ∧ used.length ≤ MAX_FINALIZED_BLOCK_BYTES + 1) := by
      intro status hbatch
      rw [hbatch]
      exact ⟨rfl, rfl, [frame], rfl, .inl le_rfl⟩
    have hbatch : batch = receiveBlocks firstHeight maxBlocks consume ending count handed (frame :: frames) := rfl
    rw [receiveBlocks] at hbatch
    split at hbatch
    · exact .inl (hone _ hbatch)
    split at hbatch
    · exact .inl (hone _ hbatch)
    next hcount =>
    rw [ge_iff_le, UInt8.not_le] at hcount
    cases hmeta : readBlockMeta frame with
    | none =>
      rw [hmeta] at hbatch
      exact .inl (hone _ hbatch)
    | some read =>
      obtain ⟨announced, size⟩ := read
      rw [hmeta] at hbatch
      dsimp only at hbatch
      split at hbatch
      · exact .inl (hone _ hbatch)
      next hannounced =>
      simp only [not_or, not_not, Nat.not_lt] at hannounced
      obtain ⟨hheight, hsize, hmax⟩ := hannounced
      obtain ⟨used, hused, hreads⟩ := receiveData_reads .blockData size.toNat frames
      -- A transfer that failed.
      have hmany : ∀ status, batch =
            { result := { status, count }, handed, rest := (receiveData .blockData size.toNat frames).rest } →
          batch.handed = handed ∧ batch.result.count = count ∧ ∃ used, frame :: frames = used ++ batch.rest ∧
            (used.length ≤ 1 ∨ count < maxBlocks ∧ used.length ≤ MAX_FINALIZED_BLOCK_BYTES + 1) := by
        intro status hbatch
        rw [hbatch]
        refine ⟨rfl, rfl, frame :: used, by rw [List.cons_append, ← hused], .inr ⟨hcount, ?_⟩⟩
        rw [List.length_cons]
        omega
      rcases hjoin : receiveData .blockData size.toNat frames with ⟨_ | _ | _, block, rest⟩
      · rw [hjoin] at hbatch
        dsimp only at hbatch
        obtain ⟨data, hdata, htransfer⟩ := receiveData_complete hjoin
        refine .inr ⟨hcount, block, frame :: data, rest, by rw [hdata, List.cons_append],
          ⟨size, data, hsize, hmax, ?_, htransfer⟩, ?_⟩
        · rw [readBlockMeta_eq_some.mp hmeta, hheight]
        · split at hbatch
          next hrefused => exact .inl ⟨hrefused, hbatch⟩
          next htaken => exact .inr ⟨Bool.not_eq_false _ ▸ htaken, hbatch⟩
      · rw [hjoin] at hbatch hmany
        exact .inl (hmany _ hbatch)
      · rw [hjoin] at hbatch hmany
        exact .inl (hmany _ hbatch)

/-- What the loop does from a turn on: the blocks it hands over, in their order and from the
    frames they came in, and how far it reads. -/
structure Progress (firstHeight : UInt64) (maxBlocks : UInt8) (consume : BlockConsumer) (count : UInt8)
    (handed : List (UInt64 × Bytes)) (frames : List Frame) (new : List (UInt64 × Bytes)) (batch : BlockBatch) :
    Prop where
  blocks : batch.handed = handed ++ new
  atMost : count.toNat + new.length ≤ maxBlocks.toNat
  heights : ∀ i (h : i < new.length), new[i].1 = firstHeight + UInt64.ofNat (count.toNat + i)
  countStart : count.toNat ≤ batch.result.count.toNat
  countLe : batch.result.count.toNat ≤ count.toNat + new.length
  countGe : count.toNat + new.length ≤ batch.result.count.toNat + 1
  taken : ∀ i (h : i < new.length),
    consume (handed ++ new.take i) new[i].1 new[i].2 = decide (count.toNat + i < batch.result.count.toNat)
  cameIn : ∃ segments later, frames = segments.flatten ++ later ∧
    List.Forall₂ (fun block segment => Announces block.1 block.2 segment) new segments
  reads : ∃ used, frames = used ++ batch.rest ∧
    used.length ≤ (maxBlocks.toNat - count.toNat) * (MAX_FINALIZED_BLOCK_BYTES + 1) + 1

theorem ofNat_toNat8 (count : UInt8) : UInt64.ofNat count.toNat = count.toUInt64 := by
  rw [← UInt8.toNat_toUInt64, UInt64.ofNat_toNat]

variable {used frames : List Frame}

variable {batch : BlockBatch}

theorem Progress.stop (hcount : count ≤ maxBlocks)
    (hhanded : batch.handed = handed) (hresult : batch.result.count = count)
    (hused : frames = used ++ batch.rest)
    (hreads : used.length ≤ 1 ∨ count < maxBlocks ∧ used.length ≤ MAX_FINALIZED_BLOCK_BYTES + 1) :
    Progress firstHeight maxBlocks consume count handed frames [] batch where
  blocks := by rw [hhanded, List.append_nil]
  atMost := UInt8.le_iff_toNat_le.mp hcount
  heights := nofun
  countStart := by rw [hresult]
  countLe := by rw [hresult, List.length_nil, Nat.add_zero]
  countGe := by
    rw [hresult, List.length_nil]
    omega
  taken := nofun
  cameIn := ⟨[], frames, rfl, .nil⟩
  reads := by
    refine ⟨used, hused, ?_⟩
    rcases hreads with hone | ⟨hlt, hmany⟩
    · omega
    · rw [UInt8.lt_iff_toNat_lt] at hlt
      have hleft : 1 * (MAX_FINALIZED_BLOCK_BYTES + 1) ≤
          (maxBlocks.toNat - count.toNat) * (MAX_FINALIZED_BLOCK_BYTES + 1) :=
        Nat.mul_le_mul_right _ (by omega)
      omega

variable {rest : List Frame} {block : Bytes}

theorem Progress.refuse (hcount : count < maxBlocks)
    (hused : frames = used ++ rest) (hannounces : Announces (firstHeight + count.toUInt64) block used)
    (hrefused : consume handed (firstHeight + count.toUInt64) block = false) {status : BlockRequestStatus} :
    Progress firstHeight maxBlocks consume count handed frames [(firstHeight + count.toUInt64, block)]
      { result := { status, count }, handed := handed ++ [(firstHeight + count.toUInt64, block)], rest } where
  blocks := rfl
  atMost := UInt8.lt_iff_toNat_lt.mp hcount
  heights := by
    intro i hi
    obtain rfl : i = 0 := Nat.lt_one_iff.mp hi
    rw [Nat.add_zero, ofNat_toNat8]
    rfl
  countStart := le_rfl
  countLe := Nat.le_add_right _ _
  countGe := le_rfl
  taken := by
    intro i hi
    obtain rfl : i = 0 := Nat.lt_one_iff.mp hi
    rw [List.take_zero, List.append_nil, Nat.add_zero, decide_eq_false (Nat.lt_irrefl _)]
    exact hrefused
  cameIn := ⟨[used], rest, by rw [hused, List.flatten_singleton], .cons hannounces .nil⟩
  reads := by
    have hlength := hannounces.length_le
    rw [UInt8.lt_iff_toNat_lt] at hcount
    have hleft : 1 * (MAX_FINALIZED_BLOCK_BYTES + 1) ≤
        (maxBlocks.toNat - count.toNat) * (MAX_FINALIZED_BLOCK_BYTES + 1) :=
      Nat.mul_le_mul_right _ (by omega)
    exact ⟨used, hused, by omega⟩

/-- The loop hands over a block that is taken, and goes on. -/
theorem Progress.take {new : List (UInt64 × Bytes)} (hcount : count < maxBlocks) (hused : frames = used ++ rest)
    (hannounces : Announces (firstHeight + count.toUInt64) block used)
    (htaken : consume handed (firstHeight + count.toUInt64) block = true)
    (h : Progress firstHeight maxBlocks consume (count + 1) (handed ++ [(firstHeight + count.toUInt64, block)]) rest
      new batch) :
    Progress firstHeight maxBlocks consume count handed frames ((firstHeight + count.toUInt64, block) :: new) batch := by
  have hstep := toNat_succ (UInt8.not_le.mpr hcount)
  have hatMost := h.atMost
  have hcountStart := h.countStart
  have hcountLe := h.countLe
  have hcountGe := h.countGe
  rw [hstep] at hatMost hcountStart hcountLe hcountGe
  refine ⟨?_, ?_, ?_, by omega, ?_, ?_, ?_, ?_, ?_⟩
  · rw [h.blocks, List.append_assoc, List.singleton_append]
  · rw [List.length_cons]
    omega
  · intro i hi
    cases i with
    | zero =>
      rw [Nat.add_zero, ofNat_toNat8]
      rfl
    | succ i =>
      have hheight := h.heights i (Nat.lt_of_succ_lt_succ hi)
      rwa [hstep, Nat.add_right_comm, Nat.add_assoc] at hheight
  · rw [List.length_cons]
    omega
  · rw [List.length_cons]
    omega
  · intro i hi
    cases i with
    | zero =>
      rw [List.take_zero, List.append_nil, Nat.add_zero, decide_eq_true (by omega)]
      exact htaken
    | succ i =>
      have htakenLater := h.taken i (Nat.lt_of_succ_lt_succ hi)
      rw [hstep, Nat.add_right_comm, Nat.add_assoc, List.append_assoc, List.singleton_append] at htakenLater
      rwa [List.take_succ_cons]
  · obtain ⟨segments, later, hlater, hsegments⟩ := h.cameIn
    refine ⟨used :: segments, later, ?_, .cons hannounces hsegments⟩
    rw [hused, hlater, List.flatten_cons, List.append_assoc]
  · obtain ⟨read, hread, hreads⟩ := h.reads
    refine ⟨used ++ read, by rw [hused, hread, List.append_assoc], ?_⟩
    have hlength := hannounces.length_le
    have hleft : maxBlocks.toNat - count.toNat = (maxBlocks.toNat - (count + 1).toNat) + 1 := by
      rw [UInt8.lt_iff_toNat_lt] at hcount
      omega
    rw [hleft, Nat.add_mul, List.length_append]
    omega

theorem receiveBlocks_progress (frames : List Frame) (hcount : count ≤ maxBlocks) :
    ∃ new, Progress firstHeight maxBlocks consume count handed frames new
      (receiveBlocks firstHeight maxBlocks consume ending count handed frames) := by
  induction hleft : maxBlocks.toNat - count.toNat generalizing count handed frames with
  | zero =>
    rcases receiveBlocks_cases frames with ⟨hhanded, hresult, used, hused, hreads⟩ | ⟨hlt, -⟩
    · exact ⟨[], .stop hcount hhanded hresult hused hreads⟩
    · rw [UInt8.lt_iff_toNat_lt] at hlt
      omega
  | succ left ih =>
    rcases receiveBlocks_cases frames with ⟨hhanded, hresult, used, hused, hreads⟩ |
      ⟨hlt, block, used, rest, hused, hannounces, ⟨hrefused, hbatch⟩ | ⟨htaken, hbatch⟩⟩
    · exact ⟨[], .stop hcount hhanded hresult hused hreads⟩
    · rw [hbatch]
      exact ⟨_, .refuse hlt hused hannounces hrefused⟩
    · have hstep := toNat_succ (UInt8.not_le.mpr hlt)
      have hlater : count + 1 ≤ maxBlocks := by
        rw [UInt8.le_iff_toNat_le, hstep]
        exact UInt8.lt_iff_toNat_lt.mp hlt
      obtain ⟨new, hnew⟩ := ih rest hlater (by omega)
      rw [hbatch]
      exact ⟨_, .take hlt hused hannounces htaken hnew⟩

theorem receiveBlocks_sendBlock {b : Bytes} (hcount : count < maxBlocks)
    (h : sendBlock (firstHeight + count.toUInt64) b = some frames)
    (htaken : consume handed (firstHeight + count.toUInt64) b = true) (rest : List Frame) :
    receiveBlocks firstHeight maxBlocks consume ending count handed (frames ++ rest) =
      receiveBlocks firstHeight maxBlocks consume ending (count + 1)
        (handed ++ [(firstHeight + count.toUInt64, b)]) rest := by
  obtain ⟨hne, hmax⟩ := length_le_of_sendBlock h
  have hsize := toNat_ofNat_of_le hmax (by decide)
  have hpos := List.length_pos_iff.mpr hne
  rw [sendBlock, if_neg (not_or.mpr ⟨hne, Nat.not_lt.mpr hmax⟩), Option.some.injEq] at h
  subst h
  have hannounced : readBlockMeta
      { type := .blockMeta, payload := le64 (firstHeight + count.toUInt64) ++ le32Of b.length } =
      some (firstHeight + count.toUInt64, UInt32.ofNat b.length) := readBlockMeta_eq_some.mpr rfl
  rw [List.cons_append, receiveBlocks, if_neg (by simp), if_neg (UInt8.not_le.mpr hcount), hannounced]
  dsimp only
  have hvalid : ¬(firstHeight + count.toUInt64 ≠ firstHeight + count.toUInt64 ∨ UInt32.ofNat b.length = 0 ∨
      (UInt32.ofNat b.length).toNat > MAX_FINALIZED_BLOCK_BYTES) := by
    rintro (hheight | hzero | hlarge)
    · exact hheight rfl
    · rw [hzero, UInt32.toNat_zero] at hsize
      omega
    · omega
  rw [if_neg hvalid, hsize, receiveData_sendData]
  dsimp only
  rw [htaken, if_neg (by decide)]

theorem receiveBlocks_end (rest : List Frame) :
    receiveBlocks firstHeight maxBlocks consume ending count handed
        ({ type := .blocksEnd, payload := [count] } :: rest) =
      { result := { status := if count ≠ 0 then .ok else .notFound, count }, handed, rest } := by
  rw [receiveBlocks, if_pos rfl, if_neg (not_not.mpr rfl)]

end

section

variable [Crypto]

def Served (blockAt : UInt64 → Option FinalizedBlock) (firstHeight : UInt64) (count : Nat)
    (served : List (UInt64 × Bytes)) : Prop :=
  ∀ i (h : i < served.length), served[i].1 = firstHeight + UInt64.ofNat (count + i) ∧
    (blockAt served[i].1).bind serializeFinalizedBlock = some served[i].2

/-- A request is answered with exactly the blocks that were served for it. -/
theorem receiveBlocks_serveBlocks {blockAt : UInt64 → Option FinalizedBlock} {firstHeight : UInt64}
    {requested count last : UInt8} {consume : BlockConsumer} {ending : ReadStatus}
    (hconsume : ∀ calls height b, consume calls height b = true) {frames : List Frame}
    (h : serveBlocks blockAt firstHeight requested count = (frames, last, true)) (handed : List (UInt64 × Bytes))
    (rest : List Frame) :
    ∃ served, Served blockAt firstHeight count.toNat served ∧ count.toNat + served.length = last.toNat ∧
      receiveBlocks firstHeight requested consume ending count handed
          (frames ++ { type := .blocksEnd, payload := [last] } :: rest) =
        { result := { status := if last ≠ 0 then .ok else .notFound, count := last }, handed := handed ++ served
          rest } := by
  induction hleft : requested.toNat - count.toNat generalizing count handed frames with
  | zero =>
    have hcount : count ≥ requested := by
      rw [ge_iff_le, UInt8.le_iff_toNat_le]
      omega
    rw [serveBlocks, if_pos hcount] at h
    cases h
    exact ⟨[], nofun, rfl, by rw [List.nil_append, List.append_nil, receiveBlocks_end]⟩
  | succ left ih =>
    have hcount : ¬count ≥ requested := by
      rw [ge_iff_le, UInt8.le_iff_toNat_le]
      omega
    have hstep := toNat_succ hcount
    rw [serveBlocks, if_neg hcount] at h
    dsimp only at h
    cases hblock : blockAt (firstHeight + count.toUInt64) with
    | none =>
      rw [hblock] at h
      cases h
      exact ⟨[], nofun, rfl, by rw [List.nil_append, List.append_nil, receiveBlocks_end]⟩
    | some block =>
      rw [hblock] at h
      dsimp only at h
      cases hsent : (serializeFinalizedBlock block).bind (sendBlock (firstHeight + count.toUInt64)) with
      | none =>
        rw [hsent] at h
        cases h
      | some sent =>
        rw [hsent] at h
        dsimp only at h
        rcases hlater : serveBlocks blockAt firstHeight requested (count + 1) with ⟨later, last', ended⟩
        rw [hlater] at h
        cases h
        obtain ⟨bytes, hbytes, hframes⟩ := Option.bind_eq_some_iff.mp hsent
        obtain ⟨served, hserved, hlast, hreceived⟩ := ih hlater
          (handed ++ [(firstHeight + count.toUInt64, bytes)]) (by omega)
        refine ⟨(firstHeight + count.toUInt64, bytes) :: served, ?_, ?_, ?_⟩
        · intro i hi
          cases i with
          | zero =>
            rw [Nat.add_zero, ofNat_toNat8]
            exact ⟨rfl, by rw [List.getElem_cons_zero, hblock, Option.bind_some, hbytes]⟩
          | succ i =>
            have hrow := hserved i (Nat.lt_of_succ_lt_succ hi)
            rwa [hstep, Nat.add_right_comm, Nat.add_assoc] at hrow
        · rw [List.length_cons]
          omega
        · rw [List.append_assoc, receiveBlocks_sendBlock (UInt8.not_le.mp hcount) hframes (hconsume _ _ _),
            hreceived, List.append_assoc, List.singleton_append]

end

variable {firstHeight : UInt64} {maxBlocks : UInt8}

theorem toNat_height (hpos : maxBlocks ≠ 0)
    (h : ¬firstHeight > 0xffffffffffffffff - maxBlocks.toUInt64 + 1) {i : Nat} (hi : i < maxBlocks.toNat) :
    (firstHeight + UInt64.ofNat i).toNat = firstHeight.toNat + i := by
  have hmax := maxBlocks.toNat_lt
  have hzero : maxBlocks.toNat ≠ 0 := fun hzero => hpos (UInt8.toNat_inj.mp hzero)
  have hwide : maxBlocks.toUInt64.toNat = maxBlocks.toNat := UInt8.toNat_toUInt64 maxBlocks
  have hsub : ((0xffffffffffffffff : UInt64) - maxBlocks.toUInt64).toNat = 2 ^ 64 - 1 - maxBlocks.toNat := by
    rw [UInt64.toNat_sub_of_le, hwide]
    · rfl
    · rw [UInt64.le_iff_toNat_le, hwide]
      exact Nat.le_trans (Nat.le_of_lt hmax) (by decide)
  rw [gt_iff_lt, UInt64.not_lt, UInt64.le_iff_toNat_le, UInt64.toNat_add, hsub, UInt64.toNat_one] at h
  have hsum : 2 ^ 64 - 1 - maxBlocks.toNat + 1 < 2 ^ 64 := by omega
  rw [Nat.mod_eq_of_lt hsum] at h
  have hi64 : (UInt64.ofNat i).toNat = i := UInt64.toNat_ofNat_of_lt' (Nat.lt_of_lt_of_le hi (by
    exact Nat.le_trans (Nat.le_of_lt hmax) (by decide)))
  rw [UInt64.toNat_add, hi64, Nat.mod_eq_of_lt (by omega)]

structure RequestSound (firstHeight : UInt64) (maxBlocks : UInt8) (consume : BlockConsumer) (frames : List Frame)
    (batch : BlockBatch) : Prop where
  /-- The heights are consecutive from the requested one on. -/
  heights : ∀ i (h : i < batch.handed.length), batch.handed[i].1.toNat = firstHeight.toNat + i
  /-- No height that is compared or handed over has wrapped. -/
  noWrap : batch.result.status ≠ .invalidRequest → ∀ i < maxBlocks.toNat,
    (firstHeight + UInt64.ofNat i).toNat = firstHeight.toNat + i
  atMost : batch.handed.length ≤ maxBlocks.toNat
  /-- The count is the number of blocks that the consumer took; behind them at most one was refused. -/
  countLe : batch.result.count.toNat ≤ batch.handed.length
  countGe : batch.handed.length ≤ batch.result.count.toNat + 1
  taken : ∀ i (h : i < batch.handed.length),
    consume (batch.handed.take i) batch.handed[i].1 batch.handed[i].2 = decide (i < batch.result.count.toNat)
  /-- Each block has the announced size, and came in no more data frames than bytes. -/
  cameIn : ∃ segments later, frames = segments.flatten ++ later ∧
    List.Forall₂ (fun block segment => Announces block.1 block.2 segment) batch.handed segments
  /-- Also a request that fails reads no further. -/
  reads : ∃ used, frames = used ++ batch.rest ∧
    used.length ≤ maxBlocks.toNat * (MAX_FINALIZED_BLOCK_BYTES + 1) + 1

theorem requestSound_of_nothing {consume : BlockConsumer}
    {status : BlockRequestStatus} (h : status ≠ .invalidRequest → ∀ i < maxBlocks.toNat,
      (firstHeight + UInt64.ofNat i).toNat = firstHeight.toNat + i) :
    RequestSound firstHeight maxBlocks consume frames { result := { status }, rest := frames } where
  heights := nofun
  noWrap := h
  atMost := Nat.zero_le _
  countLe := le_rfl
  countGe := Nat.zero_le _
  taken := nofun
  cameIn := ⟨[], frames, rfl, .nil⟩
  reads := ⟨[], rfl, Nat.zero_le _⟩

/-- **A request hands over consecutive blocks and counts those that are taken.** -/
theorem requestBlocks_sound (connected written : Bool) (firstHeight : UInt64) (maxBlocks : UInt8)
    (consume : BlockConsumer) (stream : FrameStream) :
    RequestSound firstHeight maxBlocks consume stream.frames
      (requestBlocks connected written firstHeight maxBlocks (some consume) stream) := by
  rw [requestBlocks]
  split
  · exact requestSound_of_nothing nofun
  next hguard =>
  simp only [not_or] at hguard
  have hheight : ∀ i < maxBlocks.toNat, (firstHeight + UInt64.ofNat i).toNat = firstHeight.toNat + i :=
    fun i hi => toNat_height hguard.2.2.1 hguard.2.2.2.2 hi
  split
  · exact requestSound_of_nothing fun _ => hheight
  have hzero : (0 : UInt8) ≤ maxBlocks := UInt8.le_iff_toNat_le.mpr (Nat.zero_le _)
  obtain ⟨new, h⟩ : ∃ new, Progress firstHeight maxBlocks consume 0 [] stream.frames new
      (receiveBlocks firstHeight maxBlocks consume stream.ending 0 [] stream.frames) :=
    receiveBlocks_progress stream.frames hzero
  generalize receiveBlocks firstHeight maxBlocks consume stream.ending 0 [] stream.frames = batch at h
  obtain ⟨hblocks, hatMost, hheights, -, hcountLe, hcountGe, htaken, hcameIn, hreads⟩ := h
  simp only [UInt8.toNat_zero, Nat.zero_add, Nat.sub_zero, List.nil_append] at *
  subst hblocks
  refine ⟨fun i hi => ?_, fun _ => hheight, hatMost, hcountLe, hcountGe, htaken, hcameIn, hreads⟩
  rw [hheights i hi, hheight i (by omega)]

/-! ### Over the wire -/

theorem writeFrames_transfer {data : MessageType} (h : payload.length ≤ MAX_FRAME_PAYLOAD)
    {tail : List Frame} (htail : ∀ frame ∈ tail, frame.payload.length ≤ MAX_FRAME_PAYLOAD) :
    ∃ wire, writeFrames ({ type, payload } :: sendData data b ++ tail) = some wire := by
  refine writeFrames_isSome fun frame hframe => ?_
  rcases List.mem_append.mp hframe with hframe | hframe
  · rcases List.mem_cons.mp hframe with rfl | hframe
    · exact h
    · exact sendData_fits hframe
  · exact htail frame hframe

theorem requestBlock_sendBlock (hheight : height ≠ 0) (h : sendBlock height b = some frames) :
    ∃ wire, writeFrames (frames ++ [{ type := .blocksEnd, payload := [1] }]) = some wire ∧
      requestBlock true true height (framesOf wire) = (.ok, b) := by
  have hsent := h
  rw [sendBlock, Option.ite_none_left_eq_some, Option.some.injEq] at hsent
  obtain ⟨-, hframes⟩ := hsent
  have hpayload : (le64 height ++ le32Of b.length).length ≤ MAX_FRAME_PAYLOAD := by
    rw [List.length_append, length_le64, length_le32Of]
    decide
  obtain ⟨wire, hwire⟩ : ∃ wire, writeFrames (frames ++ [{ type := .blocksEnd, payload := [1] }]) = some wire :=
    hframes ▸ writeFrames_transfer hpayload (by decide)
  refine ⟨wire, hwire, ?_⟩
  have hguard : ¬(true = false ∨ height = 0 ∨ (1 : UInt8) = 0 ∨ (1 : UInt8) > MAX_BLOCK_BATCH ∨
      height > 0xffffffffffffffff - (1 : UInt8).toUInt64 + 1) := by
    have hmax := height.toNat_lt
    simp only [not_or]
    refine ⟨by decide, hheight, by decide, by decide, ?_⟩
    rw [gt_iff_lt, UInt64.not_lt, UInt64.le_iff_toNat_le]
    exact Nat.le_of_lt_succ hmax
  have hzero : height + (0 : UInt8).toUInt64 = height := UInt64.add_zero height
  have hreceived : receiveBlocks height 1 (fun _ _ _ => true) .unavailable 0 []
      (frames ++ [{ type := .blocksEnd, payload := [1] }]) =
      receiveBlocks height 1 (fun _ _ _ => true) .unavailable (0 + 1) ([] ++ [(height + (0 : UInt8).toUInt64, b)])
        [{ type := .blocksEnd, payload := [1] }] :=
    receiveBlocks_sendBlock (by decide) (by rw [hzero]; exact h) rfl _
  rw [framesOf_writeFrames hwire, requestBlock, requestBlocks, if_neg hguard, if_neg (by decide), hreceived,
    show (0 : UInt8) + 1 = 1 from rfl, receiveBlocks_end, hzero]
  rfl

theorem receiveOperation_wire {admitIngress : Nat → Bool}
    (h : sendOperation b workNonce = some frames) (hne : b ≠ []) (hroom : admitIngress b.length = true) :
    ∃ wire announced data, writeFrames frames = some wire ∧ (framesOf wire).frames = announced :: data ∧
      receiveOperation admitIngress announced data = (some { bytes := b, workNonce }, []) := by
  obtain ⟨announced, data, hframes, hreceived⟩ := receiveOperation_sendOperation h hne hroom []
  have hsent := h
  rw [sendOperation, Option.ite_none_left_eq_some, Option.some.injEq] at hsent
  have hpayload : (le32Of b.length ++ le64 workNonce).length ≤ MAX_FRAME_PAYLOAD := by
    rw [List.length_append, length_le64, length_le32Of]
    decide
  obtain ⟨wire, hwire⟩ : ∃ wire, writeFrames (frames ++ []) = some wire :=
    hsent.2 ▸ writeFrames_transfer hpayload (List.forall_mem_nil _)
  rw [List.append_nil] at hwire hreceived
  exact ⟨wire, announced, data, hwire, by rw [framesOf_writeFrames hwire, hframes], hreceived⟩

theorem length_writeChunkInit :
    (writeChunkInit chunk).length = 73 + 32 * chunk.proof.siblings.length := by
  have hsiblings := Reader.length_concat (fun id : ChunkId => id.2) chunk.proof.siblings
  simp only [writeChunkInit, List.length_append, chunk.publicationOperationId.2, chunk.chunkId.2, length_le32,
    length_le32Of, List.length_singleton, hsiblings]
  omega

theorem servePut_wire {admitStorage : Nat → Bool} (h : putAuthorizedChunk chunk = some frames)
    (hroom : admitStorage (chunk.storedBytes.length + (writeChunkInit chunk).length) = true) :
    ∃ wire request data, writeFrames frames = some wire ∧ (framesOf wire).frames = request :: data ∧
      servePutAuthorizedChunk admitStorage request data = (some chunk, []) := by
  obtain ⟨request, data, hframes, hreceived⟩ := servePut_putAuthorizedChunk h hroom []
  have hsent := h
  rw [putAuthorizedChunk, Option.ite_none_left_eq_some, Option.some.injEq] at hsent
  simp only [not_or, Nat.not_lt] at hsent
  have hpayload : (writeChunkInit chunk).length ≤ MAX_FRAME_PAYLOAD := by
    have hsiblings := hsent.1.2.2.2
    rw [length_writeChunkInit, MAX_FRAME_PAYLOAD]
    omega
  obtain ⟨wire, hwire⟩ : ∃ wire, writeFrames (frames ++ []) = some wire :=
    hsent.2 ▸ writeFrames_transfer hpayload (List.forall_mem_nil _)
  rw [List.append_nil] at hwire hreceived
  exact ⟨wire, request, data, hwire, by rw [framesOf_writeFrames hwire, hframes], hreceived⟩

section

variable [Crypto]

theorem receiveChunkById_wire {admitStorage : Nat → Bool} {finalizedChunkSize : ChunkId → Option UInt64}
    {getFinalizedChunk : ChunkId → Option Bytes} {chunkId : ChunkId} {b : Bytes} {request : Frame}
    (hrequest : getChunkRequest chunkId = some request) (hchunk : getFinalizedChunk chunkId = some b)
    (hstored : ChunkBlobStore.readBlob b chunkId = some b)
    (hroom : admitStorage (((finalizedChunkSize chunkId).getD 0).toNat + 32) = true) :
    ∃ frames wire, serveGetChunkById admitStorage finalizedChunkSize getFinalizedChunk request = (frames, true) ∧
      writeFrames frames = some wire ∧ receiveChunkById chunkId (framesOf wire).frames = (.found b, []) := by
  obtain ⟨frames, hframes, hreceived⟩ := receiveChunkById_serve hrequest hchunk hstored hroom []
  rw [getChunkRequest, Option.ite_none_left_eq_some, Option.some.injEq] at hrequest
  obtain ⟨-, rfl⟩ := hrequest
  have hread : (Reader.fixed 32).whole chunkId.1 = some chunkId := (Reader.fixed_exact 32).whole.mpr ⟨trivial, rfl⟩
  have hsent := hframes
  rw [serveGetChunkById, hread] at hsent
  dsimp only at hsent
  rw [chunkId.2, hroom, if_neg (by decide), hchunk, Prod.mk.injEq] at hsent
  have hpayload : ([1] ++ le32Of b.length).length ≤ MAX_FRAME_PAYLOAD := by
    rw [List.length_append, length_le32Of]
    decide
  obtain ⟨wire, hwire⟩ : ∃ wire, writeFrames (frames ++ []) = some wire :=
    hsent.1 ▸ writeFrames_transfer hpayload (List.forall_mem_nil _)
  rw [List.append_nil] at hwire hreceived
  exact ⟨frames, wire, hframes, hwire, by rw [framesOf_writeFrames hwire]; exact hreceived⟩

theorem requestBlocks_serveGetBlocks {blockAt : UInt64 → Option FinalizedBlock} {firstHeight : UInt64}
    {maxBlocks : UInt8} {consume : BlockConsumer} (hconsume : ∀ calls height b, consume calls height b = true)
    {frames : List Frame} (h : serveGetBlocks blockAt (getBlocks firstHeight maxBlocks) = (frames, true))
    (ending : ReadStatus) :
    ∃ served count, Served blockAt firstHeight 0 served ∧ served.length = count.toNat ∧
      requestBlocks true true firstHeight maxBlocks (some consume) { frames, ending } =
        { result := { status := if count ≠ 0 then .ok else .notFound, count }, handed := served, rest := [] } := by
  have hrequest : Reader.whole (do return (← Reader.u64, ← Reader.u8)) (getBlocks firstHeight maxBlocks).payload =
      some (firstHeight, maxBlocks) := (whole_pair Reader.u64_exact Reader.u8_exact).mpr rfl
  rw [serveGetBlocks, hrequest] at h
  dsimp only at h
  split at h
  · cases h
  next hguard =>
  rcases hserve : serveBlocks blockAt firstHeight maxBlocks 0 with ⟨sent, count, _ | _⟩
  · rw [hserve] at h
    cases h
  · rw [hserve] at h
    cases h
    obtain ⟨served, hserved, hlength, hreceived⟩ := receiveBlocks_serveBlocks hconsume hserve [] []
    refine ⟨served, count, hserved, by rwa [UInt8.toNat_zero, Nat.zero_add] at hlength, ?_⟩
    rw [requestBlocks, if_neg (by simpa using hguard), if_neg (by decide)]
    exact hreceived

/-- What is sent in frames is received byte by byte, except for the empty operation, and a
    receiver takes exactly the announced bytes from whatever is sent to it.  What a peer
    serves for a request is what the request hands on. -/
theorem transfers_exact :
    (∀ height b frames, height ≠ 0 → sendBlock height b = some frames →
      ∃ wire, writeFrames (frames ++ [{ type := .blocksEnd, payload := [1] }]) = some wire ∧
        requestBlock true true height (framesOf wire) = (.ok, b)) ∧
    (∀ admitIngress b workNonce frames, sendOperation b workNonce = some frames → b ≠ [] →
      admitIngress b.length = true →
      ∃ wire announced data, writeFrames frames = some wire ∧ (framesOf wire).frames = announced :: data ∧
        receiveOperation admitIngress announced data = (some { bytes := b, workNonce }, [])) ∧
    (∀ admitStorage chunk frames, putAuthorizedChunk chunk = some frames →
      admitStorage (chunk.storedBytes.length + (writeChunkInit chunk).length) = true →
      ∃ wire request data, writeFrames frames = some wire ∧ (framesOf wire).frames = request :: data ∧
        servePutAuthorizedChunk admitStorage request data = (some chunk, [])) ∧
    (∀ admitStorage finalizedChunkSize getFinalizedChunk chunkId b request,
      getChunkRequest chunkId = some request → getFinalizedChunk chunkId = some b →
      ChunkBlobStore.readBlob b chunkId = some b →
      admitStorage (((finalizedChunkSize chunkId).getD 0).toNat + 32) = true →
      ∃ frames wire, serveGetChunkById admitStorage finalizedChunkSize getFinalizedChunk request = (frames, true) ∧
        writeFrames frames = some wire ∧ receiveChunkById chunkId (framesOf wire).frames = (.found b, [])) ∧
    (∀ admitIngress announced frames,
      ∃ used, frames = used ++ (receiveOperation admitIngress announced frames).2 ∧
        used.length ≤ operationSize announced ∧
        ∀ received, (receiveOperation admitIngress announced frames).1 = some received →
          Transferred .opData (operationSize announced) received.bytes used) ∧
    (∀ admitStorage request frames,
      ∃ used, frames = used ++ (servePutAuthorizedChunk admitStorage request frames).2 ∧
        used.length ≤ putSize request ∧
        ∀ chunk, (servePutAuthorizedChunk admitStorage request frames).1 = some chunk →
          Transferred .authorizedChunkData (putSize request) chunk.storedBytes used) ∧
    (∀ chunkId answer frames,
      ∃ used, frames = used ++ (receiveChunkById chunkId (answer :: frames)).2 ∧ used.length ≤ answerSize answer ∧
        ∀ b, (receiveChunkById chunkId (answer :: frames)).1 = .found b →
          Transferred .chunkData (answerSize answer) b used ∧ computeChunkId b = chunkId) ∧
    (∀ connected written firstHeight maxBlocks consume stream,
      RequestSound firstHeight maxBlocks consume stream.frames
        (requestBlocks connected written firstHeight maxBlocks (some consume) stream)) ∧
    ∀ blockAt firstHeight maxBlocks consume frames ending, (∀ calls height b, consume calls height b = true) →
      serveGetBlocks blockAt (getBlocks firstHeight maxBlocks) = (frames, true) →
      ∃ served count, Served blockAt firstHeight 0 served ∧ served.length = count.toNat ∧
        requestBlocks true true firstHeight maxBlocks (some consume) { frames, ending } =
          { result := { status := if count ≠ 0 then .ok else .notFound, count }, handed := served, rest := [] } :=
  ⟨fun _ _ _ hheight h => requestBlock_sendBlock hheight h,
    fun _ _ _ _ h hne hroom => receiveOperation_wire h hne hroom,
    fun _ _ _ h hroom => servePut_wire h hroom,
    fun _ _ _ _ _ _ hrequest hchunk hstored hroom => receiveChunkById_wire hrequest hchunk hstored hroom,
    receiveOperation_any, servePut_any, receiveChunkById_any, requestBlocks_sound,
    fun _ _ _ _ _ ending hconsume h => requestBlocks_serveGetBlocks hconsume h ending⟩

end

/-- The empty operation is sent, and is not received. -/
theorem not_transferred_empty :
    ¬∀ (b : Bytes) (workNonce : UInt64), b.length ≤ MAX_OPERATION_PAYLOAD_BYTES →
      ∃ announced data, sendOperation b workNonce = some (announced :: data) ∧
        (receiveOperation (fun _ => true) announced data).1 = some { bytes := b, workNonce } := by
  intro h
  obtain ⟨announced, data, hsent, hreceived⟩ := h [] 0 (Nat.zero_le _)
  rw [sendOperation, if_neg (by decide), sendData, pieces_nil, List.map_nil, Option.some.injEq, List.cons.injEq] at hsent
  obtain ⟨rfl, rfl⟩ := hsent
  exact absurd hreceived (by decide)

section

attribute [local instance] Crypto.sample

/-- A block of three bytes goes over the wire. -/
theorem transfers_exact_three :
    ∃ wire, writeFrames ([{ type := .blockMeta, payload := le64 7 ++ le32Of 3 }, { type := .blockData, payload := [1, 2, 3] },
        { type := .blocksEnd, payload := [1] }]) = some wire ∧
      requestBlock true true 7 (framesOf wire) = (.ok, [1, 2, 3]) := by
  have hsent : sendBlock 7 [1, 2, 3] = some
      [{ type := .blockMeta, payload := le64 7 ++ le32Of 3 }, { type := .blockData, payload := [1, 2, 3] }] := by
    rw [sendBlock, if_neg (by decide), sendData, pieces, if_neg (by decide),
      show [1, 2, 3].drop MAX_FRAME_PAYLOAD = ([] : Bytes) from rfl, pieces_nil]
    rfl
  exact transfers_exact.1 7 [1, 2, 3] _ (by decide) hsent

end

end P2p

end Cybou

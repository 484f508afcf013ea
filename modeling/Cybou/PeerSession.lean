import Cybou.Library.Pieces
import Cybou.Block
import Cybou.ChunkStore

/-! # Frames of a session and what is transferred in them (`p2p/session.cpp`)

Blocks, operations and stored chunks go over a session as one frame that announces a size
and as many data frames as it takes.  The receivers work on the frames that `Read` returns;
`framesOf` gives these for the bytes of a connection, and how it ended.
-/

namespace Cybou.P2p

open Library

/-! ### Frames -/

def MAX_FRAME_PAYLOAD : Nat := 64 * 1024

def MAX_BLOCK_BATCH : UInt8 := 32

def HEADER_SIZE : Nat := 9

inductive MessageType where
  | hello
  | ping
  | pong
  | getBlocks
  | blockMeta
  | blockData
  | blocksEnd
  | blockAnnounce
  | blockResult
  | opPoll
  | opMeta
  | opData
  | opResult
  | getPeers
  | peers
  | putAuthorizedChunk
  | authorizedChunkData
  | chunkAdmissionResult
  | getChunkById
  | chunkData
  | getChunkAuthorizationProof
  | chunkAuthorizationProof
  | storageProof
  | storageProofRequest
  | storageAuditChallenge
  | storageAuditResponse
  | storageUsageRequest
  | storageUsage
deriving DecidableEq, Repr

namespace MessageType

/-- Every type has a code, and every type is supported. -/
def all : List MessageType :=
  [hello, ping, pong, getBlocks, blockMeta, blockData, blocksEnd, blockAnnounce, blockResult, opPoll, opMeta, opData,
    opResult, getPeers, peers, putAuthorizedChunk, authorizedChunkData, chunkAdmissionResult, getChunkById, chunkData,
    getChunkAuthorizationProof, chunkAuthorizationProof, storageProof, storageProofRequest, storageAuditChallenge,
    storageAuditResponse, storageUsageRequest, storageUsage]

def code (type : MessageType) : UInt8 := UInt8.ofNat (all.idxOf type + 1)

def ofCode (code : UInt8) : Option MessageType := all.find? fun type => decide (type.code = code)

end MessageType

structure Frame where
  type : MessageType
  payload : Bytes
deriving DecidableEq, Repr

def MAGIC : Bytes := ascii "CYBP"

def header (type : MessageType) (size : Nat) : Bytes := MAGIC ++ [type.code] ++ le32Of size

def encodeFrame (frame : Frame) : Option Bytes :=
  if frame.payload.length ≤ MAX_FRAME_PAYLOAD then
    some (header frame.type frame.payload.length ++ frame.payload)
  else none

def readHeader : Reader (MessageType × Nat) := do
  Reader.literal MAGIC
  let code ← Reader.u8
  let type ← Reader.ofOption (MessageType.ofCode code)
  let size ← Reader.count
  Reader.require (size ≤ MAX_FRAME_PAYLOAD)
  return (type, size)

inductive ReadStatus where
  | unavailable
  | invalidFrame
deriving DecidableEq, Repr

/-- `PeerSession::Read`, on the bytes that are still to come. -/
def readFrame (wire : Bytes) : Except ReadStatus (Frame × Bytes) :=
  if wire.length < HEADER_SIZE then .error .unavailable
  else
    match readHeader wire with
    | none => .error .invalidFrame
    | some ((type, size), body) =>
      if body.length < size then .error .unavailable
      else .ok ({ type, payload := body.take size }, body.drop size)

/-- The frames that the reads of a connection return, and how the read behind them fails. -/
structure FrameStream where
  frames : List Frame
  ending : ReadStatus
deriving DecidableEq, Repr

/-- Every turn takes a header, so the number of bytes bounds the turns. -/
def framesWithin : Nat → Bytes → FrameStream
  | 0, _ => { frames := [], ending := .unavailable }
  | turns + 1, wire =>
    match readFrame wire with
    | .error ending => { frames := [], ending }
    | .ok (frame, rest) =>
      { framesWithin turns rest with frames := frame :: (framesWithin turns rest).frames }

def framesOf (wire : Bytes) : FrameStream := framesWithin wire.length wire

def writeFrames : List Frame → Option Bytes
  | [] => some []
  | frame :: frames => do return (← encodeFrame frame) ++ (← writeFrames frames)

/-! ### Data frames -/

def sendData (type : MessageType) (b : Bytes) : List Frame :=
  (pieces MAX_FRAME_PAYLOAD b).map fun payload => { type, payload }

/-- The loop that receives `size` bytes. -/
def receiveData (type : MessageType) (size : Nat) (frames : List Frame) : Joined UInt8 Frame :=
  join (fun frame => if frame.type = type then some frame.payload else none) size [] frames

/-! ### Blocks -/

/-- `SendBlock`; the frames it writes. -/
def sendBlock (height : UInt64) (b : Bytes) : Option (List Frame) :=
  if b = [] ∨ b.length > MAX_FINALIZED_BLOCK_BYTES then none
  else some ({ type := .blockMeta, payload := le64 height ++ le32Of b.length } :: sendData .blockData b)

inductive BlockRequestStatus where
  | ok
  | notFound
  | unavailable
  | invalidResponse
  | invalidRequest
deriving DecidableEq, Repr

structure BlockBatchResult where
  status : BlockRequestStatus := .invalidRequest
  count : UInt8 := 0
deriving DecidableEq, Repr

abbrev BlockConsumer := List (UInt64 × Bytes) → UInt64 → Bytes → Bool

/-- The result of a request, the blocks handed to the consumer and the frames not read. -/
structure BlockBatch where
  result : BlockBatchResult
  handed : List (UInt64 × Bytes) := []
  rest : List Frame
deriving DecidableEq, Repr

/-- What a failed read means to the caller. -/
def FrameStream.failure : ReadStatus → BlockRequestStatus
  | .invalidFrame => .invalidResponse
  | .unavailable => .unavailable

/-- The height and the size that a `BLOCK_META` announces. -/
def readBlockMeta (frame : Frame) : Option (UInt64 × UInt32) :=
  if frame.type ≠ .blockMeta then none
  else Reader.whole (do return (← Reader.u64, ← Reader.u32)) frame.payload

theorem toNat_succ {count limit : UInt8} (h : ¬count ≥ limit) : (count + 1).toNat = count.toNat + 1 := by
  have hlimit := limit.toNat_lt
  rw [ge_iff_le, UInt8.le_iff_toNat_le] at h
  rw [UInt8.toNat_add, UInt8.toNat_one, Nat.mod_eq_of_lt (by omega)]

/-- The loop of `RequestBlocks`. -/
def receiveBlocks (firstHeight : UInt64) (maxBlocks : UInt8) (consume : BlockConsumer) (ending : ReadStatus)
    (count : UInt8) (handed : List (UInt64 × Bytes)) : List Frame → BlockBatch
  | [] => { result := { status := FrameStream.failure ending, count }, handed, rest := [] }
  | frame :: frames =>
    if frame.type = .blocksEnd then
      { result := { status := if frame.payload ≠ [count] then .invalidResponse
                      else if count ≠ 0 then .ok else .notFound, count }
        handed, rest := frames }
    else if count ≥ maxBlocks then { result := { status := .invalidResponse, count }, handed, rest := frames }
    else
      match readBlockMeta frame with
      | none => { result := { status := .invalidResponse, count }, handed, rest := frames }
      | some (height, size) =>
        if height ≠ firstHeight + count.toUInt64 ∨ size = 0 ∨ size.toNat > MAX_FINALIZED_BLOCK_BYTES then
          { result := { status := .invalidResponse, count }, handed, rest := frames }
        else
          match receiveData .blockData size.toNat frames with
          | ⟨.starved, _, rest⟩ => { result := { status := FrameStream.failure ending, count }, handed, rest }
          | ⟨.refused, _, rest⟩ => { result := { status := .invalidResponse, count }, handed, rest }
          | ⟨.complete, block, rest⟩ =>
            let height := firstHeight + count.toUInt64
            if consume handed height block = false then
              { result := { status := .invalidResponse, count }, handed := handed ++ [(height, block)], rest }
            else receiveBlocks firstHeight maxBlocks consume ending (count + 1) (handed ++ [(height, block)]) rest
termination_by maxBlocks.toNat - count.toNat
decreasing_by
  rename_i hcount _ _ _
  have hstep := toNat_succ hcount
  rw [ge_iff_le, UInt8.le_iff_toNat_le] at hcount
  omega

/-- `RequestBlocks`, with whether there is a peer and whether the request could be written. -/
def requestBlocks (connected written : Bool) (firstHeight : UInt64) (maxBlocks : UInt8)
    (consume : Option BlockConsumer) (stream : FrameStream) : BlockBatch :=
  match consume with
  | none => { result := {}, rest := stream.frames }
  | some consume =>
    if connected = false ∨ firstHeight = 0 ∨ maxBlocks = 0 ∨ maxBlocks > MAX_BLOCK_BATCH ∨
        firstHeight > 0xffffffffffffffff - maxBlocks.toUInt64 + 1 then { result := {}, rest := stream.frames }
    else if written = false then { result := { status := .unavailable }, rest := stream.frames }
    else receiveBlocks firstHeight maxBlocks consume stream.ending 0 [] stream.frames

def requestBlock (connected written : Bool) (height : UInt64) (stream : FrameStream) : BlockRequestStatus × Bytes :=
  let batch := requestBlocks connected written height 1 (some fun _ _ _ => true) stream
  (batch.result.status, (batch.handed.getLast?.map (·.2)).getD [])

/-- The request that `RequestBlocks` writes. -/
def getBlocks (firstHeight : UInt64) (maxBlocks : UInt8) : Frame :=
  { type := .getBlocks, payload := le64 firstHeight ++ [maxBlocks] }

section

variable [Crypto]

/-- The loop of `ServeNext` for `GET_BLOCKS`: the frames written and the number of blocks, and
    whether the loop came to its end. -/
def serveBlocks (blockAt : UInt64 → Option FinalizedBlock) (firstHeight : UInt64) (requested count : UInt8) :
    List Frame × UInt8 × Bool :=
  if count ≥ requested then ([], count, true)
  else
    let height := firstHeight + count.toUInt64
    match blockAt height with
    | none => ([], count, true)
    | some block =>
      match (serializeFinalizedBlock block).bind (sendBlock height) with
      | none => ([], count, false)
      | some frames =>
        let (later, count, served) := serveBlocks blockAt firstHeight requested (count + 1)
        (frames ++ later, count, served)
termination_by requested.toNat - count.toNat
decreasing_by
  rename_i hcount
  have hstep := toNat_succ hcount
  rw [ge_iff_le, UInt8.le_iff_toNat_le] at hcount
  omega

/-- `ServeNext` on `GET_BLOCKS`: the frames written, and whether the session goes on. -/
def serveGetBlocks (blockAt : UInt64 → Option FinalizedBlock) (request : Frame) : List Frame × Bool :=
  match Reader.whole (do return (← Reader.u64, ← Reader.u8)) request.payload with
  | none => ([], false)
  | some (firstHeight, requested) =>
    if firstHeight = 0 ∨ requested = 0 ∨ requested > MAX_BLOCK_BATCH ∨
        firstHeight > 0xffffffffffffffff - requested.toUInt64 + 1 then ([], false)
    else
      match serveBlocks blockAt firstHeight requested 0 with
      | (frames, _, false) => (frames, false)
      | (frames, count, true) => (frames ++ [{ type := .blocksEnd, payload := [count] }], true)

end

/-! ### Operations -/

/-- `SendOperation`; the empty operation answers a poll when there is none. -/
def sendOperation (b : Bytes) (workNonce : UInt64) : Option (List Frame) :=
  if b.length > MAX_OPERATION_PAYLOAD_BYTES then none
  else some ({ type := .opMeta, payload := le32Of b.length ++ le64 workNonce } :: sendData .opData b)

/-- What `ReceiveOperation` goes on with. -/
structure ReceivedOperation where
  bytes : Bytes
  workNonce : UInt64
deriving DecidableEq, Repr

/-- The size and the nonce that an `OP_META` announces. -/
def readOperationMeta (frame : Frame) : Option (UInt32 × UInt64) :=
  if frame.type ≠ .opMeta then none
  else Reader.whole (do return (← Reader.u32, ← Reader.u64)) frame.payload

/-- The transfer of `ReceiveOperation`, and the frames not read; `admitIngress` is the budget
    of the remote address. -/
def receiveOperation (admitIngress : Nat → Bool) (announced : Frame) (frames : List Frame) :
    Option ReceivedOperation × List Frame :=
  match readOperationMeta announced with
  | none => (none, frames)
  | some (size, workNonce) =>
    if size = 0 ∨ size.toNat > MAX_OPERATION_PAYLOAD_BYTES ∨ admitIngress size.toNat = false then (none, frames)
    else
      match receiveData .opData size.toNat frames with
      | ⟨.complete, bytes, rest⟩ => (some { bytes, workNonce }, rest)
      | ⟨_, _, rest⟩ => (none, rest)

/-! ### Stored chunks -/

/-- The arguments of `PutAuthorizedChunk`, which `PutFinalizedChunk` is called with. -/
structure AuthorizedChunk where
  publicationOperationId : Hash256
  chunkId : ChunkId
  storedBytes : Bytes
  proof : ChunkAuthorizationProof
deriving DecidableEq, Repr

def writeChunkInit (chunk : AuthorizedChunk) : Bytes :=
  chunk.publicationOperationId.1 ++ chunk.chunkId.1 ++ le32 chunk.proof.leafIndex ++
    [UInt8.ofNat chunk.proof.siblings.length] ++ Reader.concat Subtype.val chunk.proof.siblings ++
    le32Of chunk.storedBytes.length

/-- `PutAuthorizedChunk`; the frames it writes before it waits for the answer. -/
def putAuthorizedChunk (chunk : AuthorizedChunk) : Option (List Frame) :=
  if chunk.publicationOperationId.isNull = true ∨ isZero chunk.chunkId.1 = true ∨
      validStoredSize chunk.storedBytes.length = false ∨ chunk.proof.siblings.length > 32 then none
  else some ({ type := .putAuthorizedChunk, payload := writeChunkInit chunk } ::
    sendData .authorizedChunkData chunk.storedBytes)

def readChunkInit : Reader (Hash256 × ChunkId × ChunkAuthorizationProof × UInt32) := do
  let publicationOperationId ← Reader.fixed 32
  let chunkId ← Reader.fixed 32
  let leafIndex ← Reader.u32
  let count ← Reader.u8
  Reader.require (count.toNat ≤ 32)
  let siblings ← Reader.repeatN (Reader.fixed 32) count.toNat
  let size ← Reader.u32
  return (publicationOperationId, chunkId, { leafIndex, siblings }, size)

/-- `ServeNext` on `PUT_AUTHORIZED_CHUNK`: what `PutFinalizedChunk` is called with, and the
    frames not read; `admitStorage` is the budget of the remote address. -/
def servePutAuthorizedChunk (admitStorage : Nat → Bool) (request : Frame) (frames : List Frame) :
    Option AuthorizedChunk × List Frame :=
  match readChunkInit.whole request.payload with
  | none => (none, frames)
  | some (publicationOperationId, chunkId, proof, size) =>
    if validStoredSize size.toNat = false ∨ admitStorage (size.toNat + request.payload.length) = false then
      (none, frames)
    else
      match receiveData .authorizedChunkData size.toNat frames with
      | ⟨.complete, storedBytes, rest⟩ => (some { publicationOperationId, chunkId, storedBytes, proof }, rest)
      | ⟨_, _, rest⟩ => (none, rest)

section

variable [Crypto]

def getChunkRequest (chunkId : ChunkId) : Option Frame :=
  if isZero chunkId.1 = true then none else some { type := .getChunkById, payload := chunkId.1 }

/-- `ServeNext` on `GET_CHUNK_BY_ID`: the frames written, and whether the session goes on. -/
def serveGetChunkById (admitStorage : Nat → Bool) (finalizedChunkSize : ChunkId → Option UInt64)
    (getFinalizedChunk : ChunkId → Option Bytes) (request : Frame) : List Frame × Bool :=
  match (Reader.fixed 32).whole request.payload with
  | none => ([], false)
  | some chunkId =>
    if admitStorage (((finalizedChunkSize chunkId).getD 0).toNat + request.payload.length) = false then ([], false)
    else
      match getFinalizedChunk chunkId with
      | none => ([{ type := .chunkAdmissionResult, payload := [0] ++ le32 0 }], true)
      | some b => ({ type := .chunkAdmissionResult, payload := [1] ++ le32Of b.length } :: sendData .chunkData b, true)

inductive ChunkReceived where
  | found (storedBytes : Bytes)
  | absent
  /-- The session is given up. -/
  | unavailable
deriving DecidableEq, Repr

def receiveChunkById (chunkId : ChunkId) : List Frame → ChunkReceived × List Frame
  | [] => (.unavailable, [])
  | frame :: frames =>
    if frame.type ≠ .chunkAdmissionResult then (.unavailable, frames)
    else
      match Reader.whole (do return (← Reader.u8, ← Reader.u32)) frame.payload with
      | none => (.unavailable, frames)
      | some (held, size) =>
        if held > 1 then (.unavailable, frames)
        else if held = 0 then (if size = 0 then .absent else .unavailable, frames)
        else if validStoredSize size.toNat = false then (.unavailable, frames)
        else
          match receiveData .chunkData size.toNat frames with
          | ⟨.complete, storedBytes, rest⟩ =>
            (if computeChunkId storedBytes = chunkId then .found storedBytes else .unavailable, rest)
          | ⟨_, _, rest⟩ => (.unavailable, rest)

end

end Cybou.P2p

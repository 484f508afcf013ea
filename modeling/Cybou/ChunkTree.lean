import Cybou.EncryptedChunk

/-! # Encrypted chunk trees

`encrypted_chunk_tree.cpp`, `ChunkAuthorizationAccumulator` of `chunk_authorization.cpp`.

The builder keeps thirty lists of child references.  A list that is full is
written out as one `INDEX` chunk, whose reference goes to the list above it, and
what is left at the end of the source is carried upwards until one list holds
everything; that list is the root.  The callbacks are arguments: the source is the
list of the answers it gives, one for each call and an end of file behind the last,
and the stage callback is asked once for each leaf index.
-/

namespace Cybou

open Library

def ENCRYPTED_TREE_MAX_CHILDREN : Nat := 128

def ENCRYPTED_TREE_MAX_DEPTH : Nat := 32

def ENCRYPTED_TREE_DATA_MIN_BYTES : Nat := 160 * 1024

def ENCRYPTED_TREE_DATA_MAX_BYTES : Nat := 320 * 1024

def ENCRYPTED_TREE_ROOT_PRIVATE_METADATA_MAX_BYTES : Nat := 240 * 1024

def ROOT_KIND : UInt8 := 0

def INDEX_KIND : UInt8 := 1

def DATA_KIND : UInt8 := 2

structure ChildRef where
  id : ChunkId
  kind : UInt8 := DATA_KIND
deriving DecidableEq, Repr

/-! ### Nodes -/

/-- `MakeMetadata`; nothing where it throws. -/
def makeMetadata (kind : UInt8) (children : List ChildRef) (privateMetadata : Bytes) : Option Bytes :=
  if children.length > ENCRYPTED_TREE_MAX_CHILDREN ∨ (kind = INDEX_KIND ∧ children = []) then none
  else if kind = ROOT_KIND ∧
      privateMetadata.length > ENCRYPTED_TREE_ROOT_PRIVATE_METADATA_MAX_BYTES then none
  else
    let childKind := (children.head?.map (·.kind)).getD DATA_KIND
    let bytes := [kind] ++ [childKind] ++ le16 (UInt16.ofNat children.length) ++
      Reader.concat (fun child : ChildRef => child.id.1) children ++
      (if kind = ROOT_KIND then le32Of privateMetadata.length ++ privateMetadata else [])
    if bytes.length > ENCRYPTED_CHUNK_MAX_PLAINTEXT_BYTES then none else some bytes

/-- The fields of a node: its children and, in a root, the private metadata. -/
def readNode (expectedKind : UInt8) : Reader (List ChildRef × Bytes) := do
  let actual ← Reader.u8
  Reader.require (actual = expectedKind)
  let kind ← Reader.u8
  let count ← Reader.u16
  Reader.require (¬((kind ≠ INDEX_KIND ∧ kind ≠ DATA_KIND) ∨
    count.toNat > ENCRYPTED_TREE_MAX_CHILDREN ∨ (expectedKind = INDEX_KIND ∧ count = 0)))
  let ids ← Reader.repeatN (Reader.fixed 32) count.toNat
  let children := ids.map fun id => ({ id, kind } : ChildRef)
  if expectedKind = ROOT_KIND then
    let size ← Reader.u32
    Reader.require (size.toNat ≤ ENCRYPTED_TREE_ROOT_PRIVATE_METADATA_MAX_BYTES)
    let privateMetadata ← Reader.bytes size.toNat
    return (children, privateMetadata)
  else return (children, [])

def parseMetadata (bytes : Bytes) (expectedKind : UInt8) : Option (List ChildRef × Bytes) :=
  if bytes.length > ENCRYPTED_CHUNK_MAX_PLAINTEXT_BYTES then none
  else (readNode expectedKind).whole bytes

section

/-! ### The authorization accumulator -/

/-- `ChunkAuthorizationAccumulator`; the frontier has 32 places. -/
structure ChunkAuthorizationAccumulator where
  frontier : List (Option ChunkId)
  chunkCount : Nat
  failed : Bool
deriving DecidableEq, Repr

namespace ChunkAuthorizationAccumulator

variable [Crypto]

def initial : ChunkAuthorizationAccumulator :=
  { frontier := List.replicate 32 none, chunkCount := 0, failed := false }

/-- The loop of `Add`. -/
def carryInto : List (Option ChunkId) → ChunkId → Option (List (Option ChunkId))
  | [], _ => none
  | none :: above, carry => some (some carry :: above)
  | some left :: above, carry => (carryInto above (hashNode left carry)).map (none :: ·)

def add (acc : ChunkAuthorizationAccumulator) (chunk : ChunkId) : Bool × ChunkAuthorizationAccumulator :=
  if acc.failed = true ∨ acc.chunkCount ≥ MAX_PUBLICATION_CHUNKS.toNat ∨ isZero chunk.1 = true then
    (false, { acc with failed := true })
  else
    match carryInto acc.frontier (hashLeaf chunk) with
    | none => (false, { acc with frontier := acc.frontier.map fun _ => none, failed := true })
    | some frontier => (true, { acc with frontier, chunkCount := acc.chunkCount + 1 })

def raised (root : ChunkId) : Nat → ChunkId
  | 0 => root
  | levels + 1 => raised (hashNode root root) levels

/-- The loop of `Finish`: the root so far and its level. -/
def foldFrontier : List (Option ChunkId) → Nat → Option (ChunkId × Nat) → Option (ChunkId × Nat)
  | [], _, root => root
  | none :: above, level, root => foldFrontier above (level + 1) root
  | some node :: above, level, none => foldFrontier above (level + 1) (some (node, level))
  | some node :: above, level, some (root, rootLevel) =>
    foldFrontier above (level + 1) (some (hashNode node (raised root (level - rootLevel)), level + 1))

def finish (acc : ChunkAuthorizationAccumulator) : Option (ChunkId × Nat) :=
  if acc.failed = true ∨ acc.chunkCount = 0 then none
  else (foldFrontier acc.frontier 0 none).map fun root => (root.1, acc.chunkCount)

end ChunkAuthorizationAccumulator

/-! ### Building -/

variable [ChunkCipher]

structure EncryptedTreeSummary where
  rootChunkId : ChunkId
  chunkAuthorizationRoot : ChunkId
  contentKey : ContentKey
  plaintextBytes : Nat
  chunkCount : Nat
deriving DecidableEq, Repr

def TREE_LEVELS : Nat := ENCRYPTED_TREE_MAX_DEPTH - 2

structure TreeBuilder where
  /-- `m_levels`; only the first `TREE_LEVELS` are used. -/
  levels : Nat → List ChildRef
  authorization : ChunkAuthorizationAccumulator
  summary : EncryptedTreeSummary
  /-- How often `RAND_bytes` was called. -/
  draws : Nat
  /-- What the stage callback has accepted, in the order of the leaf indices. -/
  staged : List EncryptedChunk

def TreeBuilder.initial : TreeBuilder where
  levels _ := []
  authorization := .initial
  summary :=
    { rootChunkId := Hash256.ZERO, chunkAuthorizationRoot := Hash256.ZERO
      contentKey := FixedBytes.zero 32, plaintextBytes := 0, chunkCount := 0 }
  draws := 0
  staged := []

/-- What stopped the builder, with the answer that did. -/
inductive TreeFault where
  /-- The source failed, or gave more than there was room for. -/
  | source (read : Option Bytes) (room : Nat)
  /-- The stage callback refused a chunk. -/
  | stage (leafIndex : UInt32) (chunk : EncryptedChunk)
  | draw (fault : DrawFault)
  /-- The publication has all the chunks it may have, and needs one more. -/
  | tooManyChunks
  /-- Another check of the builder failed. -/
  | refused
deriving DecidableEq, Repr

/-- What the builder is given beside the source. -/
structure TreeInput where
  network : NetworkBinding
  random : RandomBytes
  stage : UInt32 → EncryptedChunk → Bool

abbrev Building := Proc TreeFault TreeBuilder

def drawing {α : Type} (x : Drawing α) : Building α := fun b =>
  match x b.draws with
  | .ok a draws => .ok a { b with draws }
  | .error fault draws => .error (.draw fault) { b with draws }

/-- A throw where a value is absent. -/
def orRefuse {α : Type} : Option α → Building α
  | none => throw .refused
  | some a => return a

variable (input : TreeInput) (key : ContentKey)

def store (chunk : EncryptedChunk) : Building Unit := do
  let b ← get
  let leafIndex := UInt32.ofNat b.summary.chunkCount
  if b.summary.chunkCount ≥ MAX_PUBLICATION_CHUNKS.toNat then throw .tooManyChunks
  else if input.stage leafIndex chunk = false then throw (.stage leafIndex chunk)
  else
    match b.authorization.add chunk.id with
    | (false, authorization) =>
      set { b with authorization, staged := b.staged ++ [chunk] }
      throw .refused
    | (true, authorization) =>
      if 1 > UINT64_MAX.toNat - b.summary.chunkCount then
        set { b with authorization, staged := b.staged ++ [chunk] }
        throw .refused
      else
        set { b with
          authorization
          staged := b.staged ++ [chunk]
          summary := { b.summary with chunkCount := b.summary.chunkCount + 1 } }

def storeEncrypted (plaintext : Bytes) : Building ChunkId := do
  let chunk ← drawing (encryptChunk input.random input.network key plaintext)
  store input chunk
  return chunk.id

def flushWith (pushAbove : ChildRef → Building Unit) (level : Nat) : Building Unit := do
  let b ← get
  if level + 1 ≥ TREE_LEVELS ∨ b.levels level = [] then throw .refused
  else
    let metadata ← orRefuse (makeMetadata INDEX_KIND (b.levels level) [])
    if metadata.length > ENCRYPTED_CHUNK_MAX_PLAINTEXT_BYTES then throw .refused
    else
      let id ← storeEncrypted input key metadata
      modify fun b => { b with levels := Function.update b.levels level [] }
      pushAbove { id, kind := INDEX_KIND }

def pushWithin : Nat → ChildRef → Building Unit
  | 0, _ => throw .refused
  | room + 1, child => do
    let level := TREE_LEVELS - (room + 1)
    let b ← get
    if (b.levels level).length = ENCRYPTED_TREE_MAX_CHILDREN then
      flushWith input key (pushWithin room) level
    modify fun b => { b with levels := Function.update b.levels level (b.levels level ++ [child]) }

def push (level : Nat) (child : ChildRef) : Building Unit :=
  pushWithin input key (TREE_LEVELS - level) child

def flush (level : Nat) : Building Unit := flushWith input key (push input key (level + 1)) level

def addData (plaintext : Bytes) : Building Unit := do
  let id ← storeEncrypted input key plaintext
  push input key 0 { id, kind := DATA_KIND }

/-- Writing the root of the given children: the two branches of `Finish` that return. -/
def finishRoot (children : List ChildRef) (privateMetadata : Bytes) : Building ChunkId := do
  let rootBytes ← orRefuse (makeMetadata ROOT_KIND children privateMetadata)
  let rootId ← storeEncrypted input key rootBytes
  let b ← get
  let (root, chunkCount) ← orRefuse b.authorization.finish
  if chunkCount ≠ b.summary.chunkCount then throw .refused
  else
    set { b with summary := { b.summary with chunkAuthorizationRoot := root } }
    return rootId

/-- The loop of `Finish` over the levels that are left. -/
def finishFrom (privateMetadata : Bytes) : List Nat → Building ChunkId
  | [] => throw .refused
  | level :: above => do
    let b ← get
    if b.levels level = [] then finishFrom privateMetadata above
    else if above.any (fun higher => decide (b.levels higher ≠ [])) = false then
      finishRoot input key (b.levels level) privateMetadata
    else
      flush input key level
      finishFrom privateMetadata above

def finish (privateMetadata : Bytes) : Building ChunkId := do
  let b ← get
  if (List.range TREE_LEVELS).any (fun level => decide (b.levels level ≠ [])) = false then
    finishRoot input key [] privateMetadata
  else finishFrom input key privateMetadata (List.range TREE_LEVELS)

def randomDataTarget (random : RandomBytes) : Drawing Nat := do
  let bytes ← randBytes random 4
  let width := ENCRYPTED_TREE_DATA_MAX_BYTES - ENCRYPTED_TREE_DATA_MIN_BYTES + 1
  return ENCRYPTED_TREE_DATA_MIN_BYTES + leNat bytes.1.reverse % width

/-- The last piece of the source, when it is not empty. -/
def addTail (plaintext : Bytes) : Building Unit :=
  if plaintext = [] then pure () else addData input key plaintext

/-- The two nested loops of `BuildEncryptedChunkTree`: the inner one fills `plaintext` up
    to `target`, the outer one stores it and draws the next target. -/
def readSource (target : Nat) (plaintext : Bytes) : List (Option Bytes) → Building Unit
  | [] => addTail input key plaintext
  | none :: _ => throw (.source none (target - plaintext.length))
  | some read :: reads => do
    if read.length > target - plaintext.length then
      throw (.source (some read) (target - plaintext.length))
    else if read = [] then addTail input key plaintext
    else
      let filled := plaintext ++ read
      let b ← get
      if filled.length > UINT64_MAX.toNat - b.summary.plaintextBytes then throw .refused
      else
        set { b with
          summary := { b.summary with plaintextBytes := b.summary.plaintextBytes + read.length } }
        if filled.length < target then readSource target filled reads
        else
          addData input key filled
          let target ← drawing (randomDataTarget input.random)
          readSource target [] reads

def buildEncryptedChunkTree (privateRootMetadata : Bytes) (reads : List (Option Bytes)) :
    Building EncryptedTreeSummary := do
  if privateRootMetadata.length > ENCRYPTED_TREE_ROOT_PRIVATE_METADATA_MAX_BYTES then throw .refused
  else
    let key ← drawing (generateContentKey input.random)
    modify fun b => { b with summary := { b.summary with contentKey := key } }
    let target ← drawing (randomDataTarget input.random)
    readSource input key target [] reads
    let rootChunkId ← finish input key privateRootMetadata
    modify fun b => { b with summary := { b.summary with rootChunkId } }
    let b ← get
    return b.summary

/-- The stream a source delivers: what it reads before the end of file. -/
def delivered : List (Option Bytes) → Bytes
  | some (byte :: bytes) :: reads => byte :: bytes ++ delivered reads
  | _ => []

/-! ### Reading -/

/-- The callbacks of the readers.  What a callback answers may depend on the calls
    before it. -/
structure TreeCallbacks where
  lookup : ChunkId → Option Bytes
  visit : List ChunkId → ChunkId → Bool
  rootMetadata : Bytes → Bool
  sink : List Bytes → Bytes → Bool

/-- The chunks on the way from the root (or, in an enumeration, those seen so far) and the
    calls made. -/
structure TreeReading where
  path : List ChunkId
  visited : List ChunkId
  rootMetadata : Option Bytes
  emitted : List Bytes
  outputBytes : Nat
deriving DecidableEq, Repr

def TreeReading.initial : TreeReading where
  path := []
  visited := []
  rootMetadata := none
  emitted := []
  outputBytes := 0

/-- A traversal; nothing where it is broken off. -/
abbrev Traversal := StateT TreeReading Option

variable (network : NetworkBinding) (callbacks : TreeCallbacks)

def visitChunk (id : ChunkId) : Traversal Unit := do
  let r ← get
  if callbacks.visit r.visited id = false then failure
  else set { r with visited := r.visited ++ [id] }

/-- `path.insert` of an id that must be new. -/
def enterChunk (id : ChunkId) : Traversal Unit := do
  let r ← get
  if id ∈ r.path then failure else set { r with path := id :: r.path }

/-- `lookup` and `DecryptChunk`. -/
def fetchChunk (id : ChunkId) : Traversal Bytes := do
  let stored ← liftM (callbacks.lookup id)
  liftM (decryptChunk network key id stored)

def emitData (maxOutputBytes : UInt64) (plaintext : Bytes) : Traversal Unit := do
  let r ← get
  if r.outputBytes > maxOutputBytes.toNat ∨
      plaintext.length > maxOutputBytes.toNat - r.outputBytes ∨
      callbacks.sink r.emitted plaintext = false then failure
  else set { r with
    emitted := r.emitted ++ [plaintext]
    outputBytes := r.outputBytes + plaintext.length }

def readTreeNode (maxOutputBytes : UInt64) : Nat → ChildRef → Traversal Unit
  | 0, _ => failure
  | room + 1, node => do
    visitChunk callbacks node.id
    enterChunk node.id
    let plaintext ← fetchChunk key network callbacks node.id
    if node.kind = DATA_KIND then emitData callbacks maxOutputBytes plaintext
    else
      let (children, _) ← liftM (parseMetadata plaintext INDEX_KIND)
      children.forM (readTreeNode maxOutputBytes room)
    modify fun r => { r with path := r.path.erase node.id }

def fetchEncryptedChunkTree (rootChunkId : ChunkId) (maxOutputBytes : UInt64) : Traversal Nat := do
  visitChunk callbacks rootChunkId
  let plaintext ← fetchChunk key network callbacks rootChunkId
  let (children, privateMetadata) ← liftM (parseMetadata plaintext ROOT_KIND)
  modify fun r => { r with rootMetadata := some privateMetadata }
  if callbacks.rootMetadata privateMetadata = false then failure
  else
    enterChunk rootChunkId
    children.forM (readTreeNode key network callbacks maxOutputBytes (ENCRYPTED_TREE_MAX_DEPTH - 1))
    let r ← get
    return r.outputBytes

def enumerateTreeNode : Nat → ChildRef → Traversal Unit
  | 0, _ => failure
  | room + 1, node => do
    enterChunk node.id
    visitChunk callbacks node.id
    if node.kind = DATA_KIND then return
    else
      let plaintext ← fetchChunk key network callbacks node.id
      let (children, _) ← liftM (parseMetadata plaintext INDEX_KIND)
      children.forM (enumerateTreeNode room)

def enumerateEncryptedTreeChunks (rootChunkId : ChunkId) : Traversal Unit := do
  if isZero rootChunkId.1 = true then failure
  else
    visitChunk callbacks rootChunkId
    let plaintext ← fetchChunk key network callbacks rootChunkId
    let (children, _) ← liftM (parseMetadata plaintext ROOT_KIND)
    enterChunk rootChunkId
    children.forM (enumerateTreeNode key network callbacks (ENCRYPTED_TREE_MAX_DEPTH - 1))

end

end Cybou

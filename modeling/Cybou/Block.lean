import Cybou.OperationCodec
import Cybou.KvStore

/-! # Blocks, certificates and their encodings (`block.cpp`, `poa_finality.cpp`)

The layout of a block determines its bytes: no two encodings are read as the
same block.  Writing and reading agree up to the two gaps of the operation
codec and the 32-bit counts, which the writers do not check.
-/

namespace Cybou

open Library Reader

structure CybouBlock where
  parentBlockId : Hash256
  height : UInt64
  operations : List ProtocolOperation
  resultingStateRoot : Hash256

structure CybouBlockHeader where
  parentBlockId : Hash256
  height : UInt64
  operationsRoot : Hash256
  resultingStateRoot : Hash256

structure PoaFinalityCertificate where
  networkBinding : Hash256
  blockId : Hash256
  height : UInt64
  parentBlockId : Hash256
  signature : IdentityHybridSignature

structure FinalizedBlock where
  block : CybouBlock
  certificate : PoaFinalityCertificate

def MAX_FINALIZED_BLOCK_BYTES : Nat := 32 * 1024 * 1024

def POA_FINALITY_CERTIFICATE_SIZE : Nat := 32 + 32 + 8 + 32 + 64 + 3309

/-- `ValidFields` in `poa_finality.cpp`. -/
def PoaFinalityCertificate.validFields (certificate : PoaFinalityCertificate) : Bool :=
  !certificate.networkBinding.isNull && !certificate.blockId.isNull && certificate.height ≠ 0 &&
    !certificate.parentBlockId.isNull && certificate.signature.mlDsa.length = 3309 &&
    !isZero certificate.signature.ed25519.1 && !isZero certificate.signature.mlDsa

def serializePoaFinalityCertificate (certificate : PoaFinalityCertificate) : Option Bytes :=
  if ¬certificate.validFields = true then none
  else some (certificate.networkBinding.1 ++ certificate.blockId.1 ++ le64 certificate.height ++
    certificate.parentBlockId.1 ++ certificate.signature.ed25519.1 ++ certificate.signature.mlDsa)

def readPoaFinalityCertificate : Reader PoaFinalityCertificate := do
  let networkBinding ← fixed 32
  let blockId ← fixed 32
  let height ← u64
  let parentBlockId ← fixed 32
  let signature ← readSignature 3309
  let certificate : PoaFinalityCertificate :=
    { networkBinding, blockId, height, parentBlockId, signature }
  require (certificate.validFields = true)
  return certificate

def deserializePoaFinalityCertificate : Bytes → Option PoaFinalityCertificate :=
  readPoaFinalityCertificate.sized POA_FINALITY_CERTIFICATE_SIZE

section

variable [Crypto]

/-! ### Identifiers -/

def computeOperationsRootFromHashes (hashes : List Hash256) : Hash256 :=
  Crypto.sha256 (ascii "CYBOU/OPS-ROOT" ++ le32Of hashes.length ++ concat (fun h : Hash256 => h.1) hashes)

/-- `ComputeOperationsRoot`.  Operations that cannot be serialized are left out. -/
def computeOperationsRoot (operations : List ProtocolOperation) : Hash256 :=
  computeOperationsRootFromHashes
    (operations.filterMap fun op => (serializeProtocolOperation op).map Crypto.sha256)

def computeBlockHeaderId (header : CybouBlockHeader) : Hash256 :=
  Crypto.sha256 (ascii "CYBOU/BLOCK" ++ header.parentBlockId.1 ++ le64 header.height ++
    header.operationsRoot.1 ++ header.resultingStateRoot.1)

def extractBlockHeader (block : CybouBlock) : CybouBlockHeader :=
  { parentBlockId := block.parentBlockId, height := block.height
    operationsRoot := computeOperationsRoot block.operations
    resultingStateRoot := block.resultingStateRoot }

def computeBlockId (block : CybouBlock) : Hash256 := computeBlockHeaderId (extractBlockHeader block)

/-! ### Certificate verification -/

def computePoaFinalityDigest (networkBinding blockId : Hash256) (height : UInt64)
    (parentBlockId : Hash256) : Hash256 :=
  Crypto.sha256 (ascii "CYBOU/POA-FINALITY" ++ networkBinding.1 ++ blockId.1 ++ le64 height ++
    parentBlockId.1)

def verifyPoaFinalityCertificate (certificate : PoaFinalityCertificate)
    (genesisFinalizerKey : IdentityHybridPublicKey) (expectedNetworkBinding expectedBlockId : Hash256)
    (expectedHeight : UInt64) (expectedParentBlockId : Hash256) : Bool :=
  if certificate.validFields = false ∨ genesisFinalizerKey.purpose ≠ .poaFinalizer ∨
      genesisFinalizerKey.mlDsa.length ≠ 1952 ∨ isZero genesisFinalizerKey.ed25519.1 = true ∨
      isZero genesisFinalizerKey.mlDsa = true ∨ certificate.networkBinding ≠ expectedNetworkBinding ∨
      certificate.blockId ≠ expectedBlockId ∨ certificate.height ≠ expectedHeight ∨
      certificate.parentBlockId ≠ expectedParentBlockId then false
  else verifyIdentityMessage genesisFinalizerKey certificate.signature
    (computePoaFinalityDigest certificate.networkBinding certificate.blockId certificate.height
      certificate.parentBlockId).1

/-! ### Codecs -/

def framed (b : Bytes) : Bytes := le32Of b.length ++ b

def serializeBlock (block : CybouBlock) : Option Bytes := do
  let serializedOperations ← block.operations.mapM serializeProtocolOperation
  return block.parentBlockId.1 ++ le64 block.height ++ block.resultingStateRoot.1 ++
    le32Of block.operations.length ++ concat framed serializedOperations

def readOperation : Reader ProtocolOperation := do
  let opLen ← count
  let raw ← bytes opLen
  ofOption (deserializeProtocolOperation raw)

def readBlock : Reader CybouBlock := do
  let parentBlockId ← fixed 32
  let height ← u64
  let resultingStateRoot ← fixed 32
  let opCount ← count
  fits 4 opCount
  let operations ← repeatN readOperation opCount
  return { parentBlockId, height, operations, resultingStateRoot }

def deserializeBlock : Bytes → Option CybouBlock := readBlock.whole

def serializeFinalizedBlock (finalizedBlock : FinalizedBlock) : Option Bytes := do
  let serializedBlock ← serializeBlock finalizedBlock.block
  let serializedCert ← serializePoaFinalityCertificate finalizedBlock.certificate
  return framed serializedBlock ++ framed serializedCert

def readFinalizedBlock : Reader FinalizedBlock := do
  let blockLen ← count
  let rawBlock ← bytes blockLen
  let block ← ofOption (deserializeBlock rawBlock)
  let certLen ← count
  let rawCert ← bytes certLen
  let certificate ← ofOption (deserializePoaFinalityCertificate rawCert)
  return { block, certificate }

def deserializeFinalizedBlock : Bytes → Option FinalizedBlock := readFinalizedBlock.whole

/-- The signature cannot vouch for a block without an encoding. -/
def verifyPoaCertificateForBlock (certificate : PoaFinalityCertificate)
    (genesisFinalizerKey : IdentityHybridPublicKey) (expectedNetworkBinding : Hash256)
    (block : CybouBlock) : Bool :=
  if serializeBlock block = none then false
  else if (computeBlockId block).isNull = true then false
  else verifyPoaFinalityCertificate certificate genesisFinalizerKey expectedNetworkBinding
    (computeBlockId block) block.height block.parentBlockId

end

/-! ### Certificates -/

theorem poaFinalityCertificate_inverse :
    Inverse serializePoaFinalityCertificate deserializePoaFinalityCertificate := by
  have hexact : Exact readPoaFinalityCertificate
      (fun c => c.networkBinding.1 ++ c.blockId.1 ++ le64 c.height ++ c.parentBlockId.1 ++
        c.signature.ed25519.1 ++ c.signature.mlDsa)
      (fun c => c.signature.mlDsa.length = 3309 ∧ c.validFields = true) := by
    rintro b ⟨networkBinding, blockId, height, parentBlockId, signature⟩ r
    simp only [readPoaFinalityCertificate, (fixed_exact 32).bind, u64_exact.bind,
      (readSignature_exact _).bind, require_bind, pure_eq_some, true_and, writeSignature]
    constructor
    · rintro ⟨_, _, rfl, _, _, rfl, _, _, rfl, _, _, rfl, _, _, hsize, rfl, hvalid, heq, rfl⟩
      cases heq
      exact ⟨⟨hsize, hvalid⟩, by simp⟩
    · rintro ⟨⟨hsize, hvalid⟩, rfl⟩
      exact ⟨networkBinding, _, by simp only [List.append_assoc], blockId, _, rfl, height, _, rfl,
        parentBlockId, signature.ed25519.1 ++ (signature.mlDsa ++ r), rfl, signature, r, hsize,
        by simp only [List.append_assoc], hvalid, rfl, rfl⟩
  have hsize : ∀ c : PoaFinalityCertificate, c.validFields = true → c.signature.mlDsa.length = 3309 := by
    intro c hc
    simp only [PoaFinalityCertificate.validFields, Bool.and_eq_true, decide_eq_true_eq] at hc
    exact hc.1.1.2
  refine hexact.inverse (fun c hc => ?_) fun c b => ?_
  · unfold POA_FINALITY_CERTIFICATE_SIZE
    simp only [List.length_append, length_le64, c.networkBinding.2, c.blockId.2, c.parentBlockId.2,
      c.signature.ed25519.2, hc.1]
  · rw [serializePoaFinalityCertificate, Option.ite_none_left_eq_some, not_not, Option.some.injEq,
      eq_comm (b := b)]
    constructor
    · rintro ⟨hvalid, hb⟩
      exact ⟨⟨hsize c hvalid, hvalid⟩, hb⟩
    · rintro ⟨⟨-, hvalid⟩, hb⟩
      exact ⟨hvalid, hb⟩

/-! ### Blocks -/

section

variable [Crypto]

def blockBytes (block : CybouBlock) : Bytes :=
  block.parentBlockId.1 ++ le64 block.height ++ block.resultingStateRoot.1 ++
    le32Of block.operations.length ++ concat (fun op => framed (operationBytes op)) block.operations

def BlockOk (block : CybouBlock) : Prop :=
  block.operations.length < 2 ^ 32 ∧ ∀ op ∈ block.operations, OperationOk op

theorem length_operationBytes_lt {op : ProtocolOperation} (h : OperationOk op) :
    (operationBytes op).length < 2 ^ 32 := by
  have hle := length_of_deserializeProtocolOperation h
  have hmax : ROOT_PUBLICATION_MAX_OPERATION_BYTES = 147456 := rfl
  omega

theorem readOperation_exact :
    Exact readOperation (fun op => framed (operationBytes op)) OperationOk := by
  intro b op r
  rw [readOperation, count_exact.bind]
  simp only [bind_eq_some, bytes_eq_some, ofOption, Option.map_eq_some_iff, Prod.mk.injEq,
    deserializeProtocolOperation_eq_some, framed]
  constructor
  · rintro ⟨_, _, -, rfl, raw, _, ⟨rfl, rfl⟩, _, ⟨hok, rfl⟩, rfl, rfl⟩
    exact ⟨hok, by simp⟩
  · rintro ⟨hok, rfl⟩
    exact ⟨_, _, length_operationBytes_lt hok, List.append_assoc _ _ _, _, r, ⟨rfl, rfl⟩, op,
      ⟨hok, rfl⟩, rfl, rfl⟩

omit [Crypto] in
theorem four_le_length_framed (b : Bytes) : 4 ≤ (framed b).length := by
  rw [framed, List.length_append, length_le32Of]
  omega

theorem readBlock_exact : Exact readBlock blockBytes BlockOk := by
  rintro b ⟨parentBlockId, height, operations, root⟩ r
  simp only [readBlock, (fixed_exact 32).bind, u64_exact.bind, count_exact.bind,
    fits_repeatN readOperation_exact (by decide : 0 < 4) (fun _ _ => four_le_length_framed _),
    pure_eq_some, true_and, blockBytes, BlockOk]
  constructor
  · rintro ⟨_, _, rfl, _, _, rfl, _, _, rfl, _, _, hcount, rfl, _, _, ⟨rfl, hok⟩, rfl, heq, rfl⟩
    cases heq
    exact ⟨⟨hcount, hok⟩, by simp⟩
  · rintro ⟨⟨hcount, hok⟩, rfl⟩
    exact ⟨parentBlockId, _, by simp only [List.append_assoc], height, _, rfl, root, _, rfl, _,
      concat (fun op => framed (operationBytes op)) operations ++ r, hcount, rfl, operations, r,
      ⟨rfl, hok⟩, rfl, rfl, rfl⟩

variable {b b' : Bytes} {block : CybouBlock}

theorem deserializeBlock_eq_some :
    deserializeBlock b = some block ↔ BlockOk block ∧ b = blockBytes block :=
  readBlock_exact.whole

theorem mapM_serialize_eq_some {operations : List ProtocolOperation} {encodings : List Bytes} :
    operations.mapM serializeProtocolOperation = some encodings ↔
      (∀ op ∈ operations, serializeProtocolOperation op ≠ none) ∧
        encodings = operations.map operationBytes := by
  induction operations generalizing encodings with
  | nil => simp [eq_comm]
  | cons op operations ih =>
    rw [List.mapM_cons, Option.bind_eq_bind, Option.bind_eq_some_iff]
    simp only [Option.bind_eq_bind, Option.bind_eq_some_iff, Option.pure_def, Option.some.injEq, ih,
      List.forall_mem_cons, List.map_cons]
    constructor
    · rintro ⟨b, hb, _, ⟨hall, rfl⟩, rfl⟩
      exact ⟨⟨by simp [hb], hall⟩, by rw [eq_operationBytes_of_serialize hb]⟩
    · rintro ⟨⟨hop, hall⟩, rfl⟩
      obtain ⟨b, hb⟩ := Option.ne_none_iff_exists'.mp hop
      exact ⟨b, hb, _, ⟨hall, rfl⟩, by rw [eq_operationBytes_of_serialize hb]⟩

theorem serializeBlock_eq_some :
    serializeBlock block = some b ↔
      (∀ op ∈ block.operations, serializeProtocolOperation op ≠ none) ∧ b = blockBytes block := by
  have hconcat : concat framed (block.operations.map operationBytes) =
      concat (fun op => framed (operationBytes op)) block.operations := by
    simp [concat, Function.comp_def]
  simp only [serializeBlock, Option.bind_eq_bind, Option.bind_eq_some_iff, mapM_serialize_eq_some,
    Option.pure_def, Option.some.injEq]
  constructor
  · rintro ⟨_, ⟨hall, rfl⟩, rfl⟩
    exact ⟨hall, by rw [hconcat, blockBytes]⟩
  · rintro ⟨hall, rfl⟩
    exact ⟨_, ⟨hall, rfl⟩, by rw [hconcat, blockBytes]⟩

def operationFrames : Nat → Bytes → List Bytes
  | 0, _ => []
  | n + 1, b =>
    let opLen := leNat (b.take 4)
    (b.drop 4).take opLen :: operationFrames n ((b.drop 4).drop opLen)

def blockFrames (b : Bytes) : List Bytes := operationFrames (leNat ((b.drop 72).take 4)) (b.drop 76)

omit [Crypto] in
theorem leNat_le32Of {n : Nat} (h : n < 2 ^ 32) : leNat (le32Of n) = n := by
  rw [le32Of, le32, UInt32.toNat_ofNat_of_lt' h, leNat_leBytes h]

omit [Crypto] in
theorem operationFrames_concat {encodings : List Bytes} (h : ∀ b ∈ encodings, b.length < 2 ^ 32) :
    operationFrames encodings.length (concat framed encodings) = encodings := by
  induction encodings with
  | nil => rfl
  | cons b encodings ih =>
    have hlen := leNat_le32Of (h b List.mem_cons_self)
    have hfour : (le32Of b.length).length = 4 := length_le32Of _
    rw [List.length_cons, operationFrames, concat_cons, framed, List.append_assoc,
      List.take_left' hfour, List.drop_left' hfour, hlen, List.take_left, List.drop_left,
      ih fun x hx => h x (List.mem_cons_of_mem _ hx)]

theorem blockFrames_blockBytes (h : BlockOk block) :
    blockFrames (blockBytes block) = block.operations.map operationBytes := by
  have hconcat : concat (fun op => framed (operationBytes op)) block.operations =
      concat framed (block.operations.map operationBytes) := by
    simp [concat, Function.comp_def]
  have hheader : (block.parentBlockId.1 ++ le64 block.height ++ block.resultingStateRoot.1).length = 72 := by
    simp only [List.length_append, length_le64, block.parentBlockId.2, block.resultingStateRoot.2]
  have hfour : (le32Of block.operations.length).length = 4 := length_le32Of _
  have hdrop : (blockBytes block).drop 76 = concat framed (block.operations.map operationBytes) := by
    rw [blockBytes, hconcat, List.drop_left']
    rw [List.length_append, hheader, hfour]
  have hcount : ((blockBytes block).drop 72).take 4 = le32Of block.operations.length := by
    rw [blockBytes, List.append_assoc _ (le32Of _), List.drop_left' hheader, List.take_left' hfour]
  rw [blockFrames, hdrop, hcount, leNat_le32Of h.1,
    ← @List.length_map _ _ block.operations operationBytes, operationFrames_concat]
  intro b hb
  obtain ⟨op, hop, rfl⟩ := List.mem_map.mp hb
  exact length_operationBytes_lt (h.2 op hop)

/-- What is written is read back: payout bindings of the right size, and a count
    of operations that fits its 32 bits. -/
def BlockSized (block : CybouBlock) : Prop :=
  block.operations.length < 2 ^ 32 ∧ ∀ op ∈ block.operations, BindingsSized op

theorem deserialize_serializeBlock (h : serializeBlock block = some b) :
    deserializeBlock b = some block ↔ BlockSized block := by
  obtain ⟨hall, rfl⟩ := serializeBlock_eq_some.mp h
  rw [deserializeBlock_eq_some, and_iff_left rfl]
  refine and_congr_right fun _ => forall₂_congr fun op hop => ?_
  obtain ⟨b, hb⟩ := Option.ne_none_iff_exists'.mp (hall op hop)
  rw [OperationOk, ← eq_operationBytes_of_serialize hb]
  exact deserialize_serializeProtocolOperation hb

theorem serialize_deserializeBlock (h : deserializeBlock b = some block) :
    serializeBlock block = some b ↔ ∀ frame ∈ blockFrames b, ¬NullWorkBinding frame := by
  obtain ⟨hok, rfl⟩ := deserializeBlock_eq_some.mp h
  rw [serializeBlock_eq_some, and_iff_left rfl, blockFrames_blockBytes hok, List.forall_mem_map]
  refine forall₂_congr fun op hop => ?_
  rw [← serialize_deserializeProtocolOperation (hok.2 op hop)]
  constructor
  · intro hne
    obtain ⟨b, hb⟩ := Option.ne_none_iff_exists'.mp hne
    rw [hb, eq_operationBytes_of_serialize hb]
  · intro heq
    rw [heq]
    exact Option.some_ne_none _

/-! ### Finalized blocks -/

variable {fb : FinalizedBlock}

theorem serializeFinalizedBlock_eq_some :
    serializeFinalizedBlock fb = some b ↔
      ∃ block cert, serializeBlock fb.block = some block ∧
        serializePoaFinalityCertificate fb.certificate = some cert ∧ b = framed block ++ framed cert := by
  simp only [serializeFinalizedBlock, Option.bind_eq_bind, Option.bind_eq_some_iff, Option.pure_def,
    Option.some.injEq]
  constructor
  · rintro ⟨block, hblock, cert, hcert, rfl⟩
    exact ⟨block, cert, hblock, hcert, rfl⟩
  · rintro ⟨block, cert, hblock, hcert, rfl⟩
    exact ⟨block, hblock, cert, hcert, rfl⟩

theorem deserializeFinalizedBlock_eq_some :
    deserializeFinalizedBlock b = some fb ↔
      ∃ block cert, block.length < 2 ^ 32 ∧ deserializeBlock block = some fb.block ∧
        deserializePoaFinalityCertificate cert = some fb.certificate ∧ b = framed block ++ framed cert := by
  obtain ⟨fbBlock, fbCert⟩ := fb
  rw [deserializeFinalizedBlock, whole_eq_some, readFinalizedBlock]
  simp only [count_exact.bind, bind_eq_some (p := bytes _), bytes_eq_some, ofOption_bind, pure_eq_some]
  constructor
  · rintro ⟨_, _, hlen, rfl, block, _, ⟨rfl, rfl⟩, _, hblock, _, _, -, rfl, cert, _, ⟨rfl, rfl⟩, _,
      hcert, heq, rfl⟩
    cases heq
    exact ⟨block, cert, hlen, hblock, hcert, by simp [framed]⟩
  · rintro ⟨block, cert, hlen, hblock, hcert, rfl⟩
    have hcertlen : cert.length < 2 ^ 32 := by
      rw [length_of_sized hcert]
      decide
    exact ⟨_, block ++ framed cert, hlen, by simp [framed], block, framed cert, ⟨rfl, rfl⟩, fbBlock,
      hblock, _, cert, hcertlen, rfl, cert, [], ⟨rfl, by simp⟩, fbCert, hcert, rfl, rfl⟩

def finalizedBlockPart (b : Bytes) : Bytes := (b.drop 4).take (leNat (b.take 4))

omit [Crypto] in
theorem finalizedBlockPart_framed {r : Bytes} (h : b.length < 2 ^ 32) :
    finalizedBlockPart (framed b ++ r) = b := by
  have hfour : (le32Of b.length).length = 4 := length_le32Of _
  rw [finalizedBlockPart, framed, List.append_assoc, List.take_left' hfour, List.drop_left' hfour,
    leNat_le32Of h, List.take_left]

/-- The condition of `BlockSized`, and an encoded block whose length fits its
    32 bits. -/
def FinalizedSized (fb : FinalizedBlock) : Prop :=
  BlockSized fb.block ∧ ∀ b, serializeBlock fb.block = some b → b.length < 2 ^ 32

theorem deserialize_serializeFinalizedBlock (h : serializeFinalizedBlock fb = some b) :
    deserializeFinalizedBlock b = some fb ↔ FinalizedSized fb := by
  obtain ⟨block, cert, hblock, hcert, rfl⟩ := serializeFinalizedBlock_eq_some.mp h
  rw [deserializeFinalizedBlock_eq_some]
  constructor
  · rintro ⟨block', cert', hlen, hblock', hcert', heq⟩
    have hbytes : block' = block := by
      rw [(deserializeBlock_eq_some.mp hblock').2, (serializeBlock_eq_some.mp hblock).2]
    rw [hbytes] at hblock' hlen
    refine ⟨(deserialize_serializeBlock hblock).mp hblock', fun b hb => ?_⟩
    rw [hblock] at hb
    cases hb
    exact hlen
  · rintro ⟨hsized, hlen⟩
    exact ⟨block, cert, hlen block hblock, (deserialize_serializeBlock hblock).mpr hsized,
      (poaFinalityCertificate_inverse _ _).mpr hcert, rfl⟩

theorem eq_of_serializeFinalizedBlock
    (h : deserializeFinalizedBlock b = some fb) (h' : serializeFinalizedBlock fb = some b') : b' = b := by
  obtain ⟨block, cert, -, hblock, hcert, rfl⟩ := deserializeFinalizedBlock_eq_some.mp h
  obtain ⟨block', cert', hblock', hcert', rfl⟩ := serializeFinalizedBlock_eq_some.mp h'
  rw [(serializeBlock_eq_some.mp hblock').2, (deserializeBlock_eq_some.mp hblock).2]
  rw [(poaFinalityCertificate_inverse _ _).mp hcert] at hcert'
  cases hcert'
  rfl

theorem serialize_deserializeFinalizedBlock (h : deserializeFinalizedBlock b = some fb) :
    serializeFinalizedBlock fb = some b ↔
      ∀ frame ∈ blockFrames (finalizedBlockPart b), ¬NullWorkBinding frame := by
  obtain ⟨block, cert, hlen, hblock, hcert, rfl⟩ := deserializeFinalizedBlock_eq_some.mp h
  rw [finalizedBlockPart_framed hlen, ← serialize_deserializeBlock hblock,
    serializeFinalizedBlock_eq_some]
  have hcert' := (poaFinalityCertificate_inverse _ _).mp hcert
  constructor
  · rintro ⟨block', cert', hblock', -, heq⟩
    rw [hblock', (serializeBlock_eq_some.mp hblock').2, (deserializeBlock_eq_some.mp hblock).2]
  · intro hser
    exact ⟨block, cert, hser, hcert', rfl⟩

theorem deserializeBlock_injective
    (h : deserializeBlock b = some block) (h' : deserializeBlock b' = some block) : b = b' := by
  rw [(deserializeBlock_eq_some.mp h).2, (deserializeBlock_eq_some.mp h').2]

theorem deserializeFinalizedBlock_injective
    (h : deserializeFinalizedBlock b = some fb) (h' : deserializeFinalizedBlock b' = some fb) :
    b = b' := by
  obtain ⟨block, cert, -, hblock, hcert, rfl⟩ := deserializeFinalizedBlock_eq_some.mp h
  obtain ⟨block', cert', -, hblock', hcert', rfl⟩ := deserializeFinalizedBlock_eq_some.mp h'
  rw [deserializeBlock_injective hblock hblock']
  have hsame : some cert = some cert' := by
    rw [← (poaFinalityCertificate_inverse _ _).mp hcert, (poaFinalityCertificate_inverse _ _).mp hcert']
  cases hsame
  rfl

def storeAndGetBlock (fb : FinalizedBlock) : Option FinalizedBlock := do
  let encoded ← serializeFinalizedBlock fb
  let stored ← decodeLocalBytes (encodeLocalBytes encoded)
  deserializeFinalizedBlock stored

theorem storeAndGetBlock_eq_some
    (hsize : b.length ≤ MAX_FINALIZED_BLOCK_BYTES) (h : deserializeFinalizedBlock b = some fb) :
    storeAndGetBlock fb = some fb ↔ serializeFinalizedBlock fb = some b := by
  have hmax : MAX_FINALIZED_BLOCK_BYTES = 33554432 ∧ MAX_COMPACT_SIZE = 33554432 := ⟨rfl, rfl⟩
  simp only [storeAndGetBlock, Option.bind_eq_bind, Option.bind_eq_some_iff]
  constructor
  · rintro ⟨encoded, hencoded, -⟩
    rw [hencoded, eq_of_serializeFinalizedBlock h hencoded]
  · intro hser
    refine ⟨b, hser, b, ?_, h⟩
    rw [decodeLocalBytes_encodeLocalBytes, if_pos (by omega)]

/-- **The block codec.** -/
theorem block_codec :
    (∀ block b, serializeBlock block = some b →
      (deserializeBlock b = some block ↔ BlockSized block)) ∧
    (∀ b block, deserializeBlock b = some block →
      (serializeBlock block = some b ↔ ∀ frame ∈ blockFrames b, ¬NullWorkBinding frame)) ∧
    (∀ fb b, serializeFinalizedBlock fb = some b →
      (deserializeFinalizedBlock b = some fb ↔ FinalizedSized fb)) ∧
    (∀ b fb, deserializeFinalizedBlock b = some fb →
      (serializeFinalizedBlock fb = some b ↔
        ∀ frame ∈ blockFrames (finalizedBlockPart b), ¬NullWorkBinding frame)) ∧
    (∀ b b' block, deserializeBlock b = some block → deserializeBlock b' = some block → b = b') ∧
    (∀ b b' fb, deserializeFinalizedBlock b = some fb → deserializeFinalizedBlock b' = some fb →
      b = b') ∧
    (∀ b fb, b.length ≤ MAX_FINALIZED_BLOCK_BYTES → deserializeFinalizedBlock b = some fb →
      (storeAndGetBlock fb = some fb ↔
        ∀ frame ∈ blockFrames (finalizedBlockPart b), ¬NullWorkBinding frame)) :=
  ⟨fun _ _ h => deserialize_serializeBlock h, fun _ _ h => serialize_deserializeBlock h,
    fun _ _ h => deserialize_serializeFinalizedBlock h,
    fun _ _ h => serialize_deserializeFinalizedBlock h,
    fun _ _ _ h h' => deserializeBlock_injective h h',
    fun _ _ _ h h' => deserializeFinalizedBlock_injective h h',
    fun _ _ hsize h => (storeAndGetBlock_eq_some hsize h).trans (serialize_deserializeFinalizedBlock h)⟩

end

section

attribute [local instance] Crypto.sample

def sampleBlock (op : ProtocolOperation) : CybouBlock :=
  { parentBlockId := FixedBytes.leading 31 1, height := 1, operations := [op]
    resultingStateRoot := FixedBytes.leading 31 2 }

theorem mem_sampleBlock {op other : ProtocolOperation} :
    other ∈ (sampleBlock op).operations ↔ other = op := List.mem_singleton

theorem blockOk_sampleBlock {op : ProtocolOperation} (h : OperationOk op) : BlockOk (sampleBlock op) := by
  constructor
  · rw [sampleBlock, List.length_singleton]
    decide
  · intro other hother
    rw [mem_sampleBlock.mp hother]
    exact h

/-- The parser of blocks accepts an operation that the writer of blocks refuses. -/
theorem block_without_network :
    ∃ b, deserializeBlock b =
        some (sampleBlock (.accountCreate (sampleAccountCreate Hash256.ZERO))) ∧
      serializeBlock (sampleBlock (.accountCreate (sampleAccountCreate Hash256.ZERO))) ≠ some b := by
  have hok := blockOk_sampleBlock (operationOk_sample Hash256.ZERO)
  refine ⟨_, deserializeBlock_eq_some.mpr ⟨hok, rfl⟩, fun h => ?_⟩
  obtain ⟨b, hb⟩ := Option.ne_none_iff_exists'.mp
    ((serializeBlock_eq_some.mp h).1 _ (mem_sampleBlock.mpr rfl))
  rw [eq_operationBytes_of_serialize hb] at hb
  have hnetwork := serialize_sampleAccountCreate.mp hb
  have hnull : Hash256.isNull Hash256.ZERO = true := by decide
  rw [hnull] at hnetwork
  cases hnetwork

/-- With a network, a block goes both ways. -/
theorem block_with_network :
    ∃ block b, serializeBlock block = some b ∧ deserializeBlock b = some block ∧
      ∀ frame ∈ blockFrames b, ¬NullWorkBinding frame := by
  let op : ProtocolOperation := .accountCreate (sampleAccountCreate (FixedBytes.leading 31 9))
  have hok := blockOk_sampleBlock (operationOk_sample (FixedBytes.leading 31 9))
  have hdes := deserializeBlock_eq_some.mpr ⟨hok, rfl⟩
  have hop := serialize_sampleAccountCreate.mpr (by decide : Hash256.isNull (FixedBytes.leading 31 9) = false)
  have hser : serializeBlock (sampleBlock op) = some (blockBytes (sampleBlock op)) := by
    refine serializeBlock_eq_some.mpr ⟨fun other hother => ?_, rfl⟩
    rw [mem_sampleBlock.mp hother, hop]
    exact Option.some_ne_none _
  have hsized : BlockSized (sampleBlock op) := by
    refine ⟨hok.1, fun other hother => ?_⟩
    rw [mem_sampleBlock.mp hother]
    exact trivial
  exact ⟨_, _, hser, (block_codec.1 _ _ hser).mpr hsized, (block_codec.2.1 _ _ hdes).mp hser⟩

end

end Cybou

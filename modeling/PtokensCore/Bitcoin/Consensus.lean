import PtokensCore.Bitcoin.Transaction

/-! Consensus decoding, and what it reads back from the encoder's output.

`consensus::encode::deserialize` reads one value and fails unless every byte was consumed.
Before it allocates a vector the decoder bounds it: a byte vector may hold at most
`MAX_VEC_SIZE` bytes, and a vector of another element type at most `MAX_VEC_SIZE` bytes of
elements, measured by `mem::size_of` of the element type. Those sizes belong to the
compiler's layout rather than to any source, so they are a parameter of the model.
-/

set_option autoImplicit false

namespace PtokensCore.Bitcoin

/-- `MAX_VEC_SIZE` of `consensus::encode`: `32 * 1024 * 1024`. -/
def maxVecSize : Nat := 33554432

inductive EncodeError where
  | unexpectedEof
  | oversizedVectorAllocation (requested max : Nat)
  | parseFailed (message : String)
  | unsupportedSegwitFlag (flag : UInt8)
  deriving DecidableEq, Repr

/-- `mem::size_of` of the element types the decoder allocates vectors of. -/
structure ElementSizes where
  txIn : Nat
  txOut : Nat
  transaction : Nat
  witnessElement : Nat
  txIn_pos : 0 < txIn
  txOut_pos : 0 < txOut
  transaction_pos : 0 < transaction
  witnessElement_pos : 0 < witnessElement

def readInt (width : Nat) (bytes : List UInt8) : Except EncodeError (Nat × List UInt8) :=
  match readLe width bytes with
  | some read => .ok read
  | none => .error .unexpectedEof

def decodeU32 (bytes : List UInt8) : Except EncodeError (UInt32 × List UInt8) := do
  let (value, rest) ← readInt 4 bytes
  pure (UInt32.ofNat value, rest)

def decodeU64 (bytes : List UInt8) : Except EncodeError (UInt64 × List UInt8) := do
  let (value, rest) ← readInt 8 bytes
  pure (UInt64.ofNat value, rest)

def decodeHash (bytes : List UInt8) : Except EncodeError (FixedBytes 32 × List UInt8) :=
  if long : 32 ≤ bytes.length then .ok (⟨bytes.take 32, by simp; omega⟩, bytes.drop 32)
  else .error .unexpectedEof

/-- A `VarInt` payload of `width` bytes, rejected below `minimum` as non-minimal. -/
def decodeVarIntPayload (width minimum : Nat) (bytes : List UInt8) :
    Except EncodeError (Nat × List UInt8) := do
  let (value, rest) ← readInt width bytes
  if value < minimum then throw (.parseFailed "non-minimal varint") else pure (value, rest)

def decodeVarInt : List UInt8 → Except EncodeError (Nat × List UInt8)
  | [] => .error .unexpectedEof
  | marker :: rest =>
    if marker = 0xff then decodeVarIntPayload 8 0x100000000 rest
    else if marker = 0xfe then decodeVarIntPayload 4 0x10000 rest
    else if marker = 0xfd then decodeVarIntPayload 2 0xfd rest
    else .ok (marker.toNat, rest)

/-- `Vec<u8>`, and a `Script`: at most `MAX_VEC_SIZE` bytes. -/
def decodeBytes (bytes : List UInt8) : Except EncodeError (List UInt8 × List UInt8) := do
  let (len, rest) ← decodeVarInt bytes
  if len > maxVecSize then throw (.oversizedVectorAllocation len maxVecSize)
  if rest.length < len then throw .unexpectedEof
  pure (rest.take len, rest.drop len)

/-- `count` elements, one after the other. -/
def decodeItems {α : Type} (decode : List UInt8 → Except EncodeError (α × List UInt8)) :
    Nat → List UInt8 → Except EncodeError (List α × List UInt8)
  | 0, bytes => .ok ([], bytes)
  | count + 1, bytes => do
    let (item, bytes) ← decode bytes
    let (items, bytes) ← decodeItems decode count bytes
    pure (item :: items, bytes)

/-- `Vec<T>` for an element of `elementSize` bytes in memory. -/
def decodeVec {α : Type} (elementSize : Nat) (decode : List UInt8 → Except EncodeError (α × List UInt8))
    (bytes : List UInt8) : Except EncodeError (List α × List UInt8) := do
  let (len, rest) ← decodeVarInt bytes
  let byteSize := len * elementSize
  if 2 ^ 64 ≤ byteSize then throw (.parseFailed "Invalid length")
  if byteSize > maxVecSize then throw (.oversizedVectorAllocation byteSize maxVecSize)
  decodeItems decode len rest

def decodeOutPoint (bytes : List UInt8) : Except EncodeError (OutPoint × List UInt8) := do
  let (txid, bytes) ← decodeHash bytes
  let (vout, bytes) ← decodeU32 bytes
  pure (⟨txid, vout⟩, bytes)

/-- A `TxIn` carries no witness in its own encoding: it decodes with an empty one. -/
def decodeTxIn (bytes : List UInt8) : Except EncodeError (TxIn × List UInt8) := do
  let (previousOutput, bytes) ← decodeOutPoint bytes
  let (scriptSig, bytes) ← decodeBytes bytes
  let (sequence, bytes) ← decodeU32 bytes
  pure (⟨previousOutput, ⟨scriptSig⟩, sequence, []⟩, bytes)

def decodeTxOut (bytes : List UInt8) : Except EncodeError (TxOut × List UInt8) := do
  let (value, bytes) ← decodeU64 bytes
  let (scriptPubkey, bytes) ← decodeBytes bytes
  pure (⟨value, ⟨scriptPubkey⟩⟩, bytes)

/-- `consensus::encode::deserialize`: the value, and nothing after it. -/
def deserialize {α : Type} (decode : List UInt8 → Except EncodeError (α × List UInt8)) (bytes : List UInt8) :
    Except EncodeError α := do
  let (value, rest) ← decode bytes
  if rest.isEmpty then pure value
  else throw (.parseFailed "data not consumed entirely when explicitly deserializing")

/-! ## Reading back what the encoder wrote -/

theorem readInt_toLeBytes {width value : Nat} (fits : value < 256 ^ width) (rest : List UInt8) :
    readInt width (toLeBytes width value ++ rest) = .ok (value, rest) := by
  simp [readInt, readLe_toLeBytes _ _ _ fits]

theorem decodeU32_encodeU32 (value : UInt32) (rest : List UInt8) :
    decodeU32 (encodeU32 value ++ rest) = .ok (value, rest) := by
  have fits : value.toNat < 256 ^ 4 := value.toNat_lt
  simp [decodeU32, encodeU32, readInt_toLeBytes fits, bind, Except.bind, pure, Except.pure]

theorem decodeU64_encodeU64 (value : UInt64) (rest : List UInt8) :
    decodeU64 (encodeU64 value ++ rest) = .ok (value, rest) := by
  have fits : value.toNat < 256 ^ 8 := value.toNat_lt
  simp [decodeU64, encodeU64, readInt_toLeBytes fits, bind, Except.bind, pure, Except.pure]

theorem decodeHash_bytes (hash : FixedBytes 32) (rest : List UInt8) :
    decodeHash (hash.bytes ++ rest) = .ok (hash, rest) := by
  have long : 32 ≤ (hash.bytes ++ rest).length := by simp [hash.length_eq]
  simp only [decodeHash, dif_pos long, Except.ok.injEq, Prod.mk.injEq]
  constructor
  · cases hash
    simp_all
  · simp [hash.length_eq, List.drop_append_eq_append_drop]

theorem decodeVarIntPayload_toLeBytes {width minimum n : Nat} (enough : minimum ≤ n) (fits : n < 256 ^ width)
    (rest : List UInt8) : decodeVarIntPayload width minimum (toLeBytes width n ++ rest) = .ok (n, rest) := by
  simp [decodeVarIntPayload, readInt_toLeBytes fits, Nat.not_lt.mpr enough, bind, Except.bind, pure, Except.pure]

theorem decodeVarInt_encodeVarInt {n : Nat} (fits : n < 2 ^ 64) (rest : List UInt8) :
    decodeVarInt (encodeVarInt n ++ rest) = .ok (n, rest) := by
  unfold encodeVarInt
  split_ifs with single word long
  · have same : (UInt8.ofNat n).toNat = n := by simp; omega
    have marker : ∀ code : UInt8, 0xfd ≤ code.toNat → UInt8.ofNat n ≠ code := by
      intro code high equal
      rw [← equal, same] at high
      omega
    simp [decodeVarInt, marker 0xff (by decide), marker 0xfe (by decide), marker 0xfd (by decide), same]
  · simpa [decodeVarInt] using decodeVarIntPayload_toLeBytes (by omega) (by omega) rest
  · simpa [decodeVarInt] using decodeVarIntPayload_toLeBytes (by omega) (by omega) rest
  · simpa [decodeVarInt] using decodeVarIntPayload_toLeBytes (by omega) fits rest

theorem decodeBytes_encodeBytes {bytes : List UInt8} (small : bytes.length ≤ maxVecSize) (rest : List UInt8) :
    decodeBytes (encodeBytes bytes ++ rest) = .ok (bytes, rest) := by
  have fits : bytes.length < 2 ^ 64 := by unfold maxVecSize at small; omega
  simp [decodeBytes, encodeBytes, decodeVarInt_encodeVarInt fits, Nat.not_lt.mpr small, bind, Except.bind,
    pure, Except.pure]

/-- A byte vector longer than `MAX_VEC_SIZE` is refused with an error, before any allocation. -/
theorem decodeBytes_oversized {bytes : List UInt8} (large : maxVecSize < bytes.length) (fits : bytes.length < 2 ^ 64)
    (rest : List UInt8) :
    decodeBytes (encodeBytes bytes ++ rest) = .error (.oversizedVectorAllocation bytes.length maxVecSize) := by
  simp [decodeBytes, encodeBytes, decodeVarInt_encodeVarInt fits, large, bind, Except.bind, throw, throwThe,
    MonadExceptOf.throw]

theorem decodeItems_flatMap {α β : Type} (decode : List UInt8 → Except EncodeError (β × List UInt8))
    (encode : α → List UInt8) (read : α → β) (items : List α)
    (inverse : ∀ item ∈ items, ∀ rest, decode (encode item ++ rest) = .ok (read item, rest)) (rest : List UInt8) :
    decodeItems decode items.length (items.flatMap encode ++ rest) = .ok (items.map read, rest) := by
  induction items with
  | nil => rfl
  | cons item others ih =>
    have tail := ih (fun other member => inverse other (List.mem_cons_of_mem _ member))
    simp [decodeItems, List.append_assoc, inverse item (List.mem_cons_self _ _), tail]

theorem decodeVec_encodeVec {α β : Type} (elementSize : Nat) (decode : List UInt8 → Except EncodeError (β × List UInt8))
    (encode : α → List UInt8) (read : α → β) (items : List α) (positive : 0 < elementSize)
    (small : items.length * elementSize ≤ maxVecSize)
    (inverse : ∀ item ∈ items, ∀ rest, decode (encode item ++ rest) = .ok (read item, rest)) (rest : List UInt8) :
    decodeVec elementSize decode (encodeVec encode items ++ rest) = .ok (items.map read, rest) := by
  have bounded : ¬18446744073709551616 ≤ items.length * elementSize := by unfold maxVecSize at small; omega
  have fits : items.length < 2 ^ 64 := by nlinarith
  simp [decodeVec, encodeVec, List.append_assoc, decodeVarInt_encodeVarInt fits, bounded,
    Nat.not_lt.mpr small, decodeItems_flatMap decode encode read items inverse rest]

theorem decodeOutPoint_encode (outpoint : OutPoint) (rest : List UInt8) :
    decodeOutPoint (outpoint.encode ++ rest) = .ok (outpoint, rest) := by
  simp [decodeOutPoint, OutPoint.encode, List.append_assoc, decodeHash_bytes, decodeU32_encodeU32, bind, Except.bind,
    pure, Except.pure]

theorem decodeTxIn_encode_witness {input : TxIn} (small : input.scriptSig.bytes.length ≤ maxVecSize)
    (rest : List UInt8) : decodeTxIn (input.encode ++ rest) = .ok ({ input with witness := [] }, rest) := by
  simp [decodeTxIn, TxIn.encode, List.append_assoc, decodeOutPoint_encode, decodeBytes_encodeBytes small,
    decodeU32_encodeU32]

/-- An input without a witness, whose script is within the vector bound, reads back whole. -/
theorem decodeTxIn_encode {input : TxIn} (noWitness : input.witness = [])
    (small : input.scriptSig.bytes.length ≤ maxVecSize) (rest : List UInt8) :
    decodeTxIn (input.encode ++ rest) = .ok (input, rest) := by
  rw [decodeTxIn_encode_witness small, ← noWitness]

theorem decodeTxOut_encode {output : TxOut} (small : output.scriptPubkey.bytes.length ≤ maxVecSize)
    (rest : List UInt8) : decodeTxOut (output.encode ++ rest) = .ok (output, rest) := by
  simp [decodeTxOut, TxOut.encode, List.append_assoc, decodeU64_encodeU64, decodeBytes_encodeBytes small, bind,
    Except.bind, pure, Except.pure]

theorem deserialize_of_decode {α : Type} {decode : List UInt8 → Except EncodeError (α × List UInt8)}
    {bytes : List UInt8} {value : α} (read : decode (bytes ++ []) = .ok (value, [])) :
    deserialize decode bytes = .ok value := by
  rw [List.append_nil] at read
  simp [deserialize, read, bind, Except.bind, pure, Except.pure]

theorem deserialize_ok {α : Type} {decode : List UInt8 → Except EncodeError (α × List UInt8)} {bytes : List UInt8}
    {value : α} (read : deserialize decode bytes = .ok value) : decode bytes = .ok (value, []) := by
  unfold deserialize at read
  obtain ⟨⟨decoded, rest⟩, first, read⟩ := Except.bind_eq_ok.1 read
  cases rest with
  | nil => simpa [show decoded = value by simpa using read] using first
  | cons byte rest => simp [throw, throwThe, MonadExceptOf.throw] at read

/-- `deserialize` reads exactly the encodings of the valid values, for a decoder that reads
every valid value back from its encoding and accepts nothing but such encodings. -/
theorem deserialize_iff {α : Type} {decode : List UInt8 → Except EncodeError (α × List UInt8)}
    {encode : α → List UInt8} (valid : α → Prop)
    (readsBack : ∀ {value}, valid value → ∀ rest, decode (encode value ++ rest) = .ok (value, rest))
    (canonical : ∀ {bytes value rest}, decode bytes = .ok (value, rest) → bytes = encode value ++ rest ∧ valid value)
    {bytes : List UInt8} {value : α} : deserialize decode bytes = .ok value ↔ bytes = encode value ∧ valid value := by
  constructor
  · intro read
    obtain ⟨encoded, isValid⟩ := canonical (deserialize_ok read)
    exact ⟨by simpa using encoded, isValid⟩
  · rintro ⟨rfl, isValid⟩
    exact deserialize_of_decode (readsBack isValid [])

/-! ## Transactions and blocks -/

section Transactions

variable (sizes : ElementSizes)

/-- The witnesses after the outputs, one `Vec<Vec<u8>>` for each input in turn. -/
def decodeWitnesses : List TxIn → List UInt8 → Except EncodeError (List TxIn × List UInt8)
  | [], bytes => .ok ([], bytes)
  | input :: rest, bytes => do
    let (witness, bytes) ← decodeVec sizes.witnessElement decodeBytes bytes
    let (rest, bytes) ← decodeWitnesses rest bytes
    pure ({ input with witness } :: rest, bytes)

/-- An empty input vector is read as the segregated-witness marker, and then the flag must be 1. -/
def decodeTransaction (bytes : List UInt8) : Except EncodeError (Transaction × List UInt8) := do
  let (version, bytes) ← decodeU32 bytes
  let (input, bytes) ← decodeVec sizes.txIn decodeTxIn bytes
  if input.isEmpty then
    match bytes with
    | [] => throw .unexpectedEof
    | flag :: bytes =>
      if flag = 1 then
        let (input, bytes) ← decodeVec sizes.txIn decodeTxIn bytes
        let (output, bytes) ← decodeVec sizes.txOut decodeTxOut bytes
        let (input, bytes) ← decodeWitnesses sizes input bytes
        if !input.isEmpty && input.all (·.witness.isEmpty) then
          throw (.parseFailed "witness flag set but no witnesses present")
        else
          let (lockTime, bytes) ← decodeU32 bytes
          pure (⟨version, lockTime, input, output⟩, bytes)
      else throw (.unsupportedSegwitFlag flag)
  else
    let (output, bytes) ← decodeVec sizes.txOut decodeTxOut bytes
    let (lockTime, bytes) ← decodeU32 bytes
    pure (⟨version, lockTime, input, output⟩, bytes)

def decodeBlockHeader (bytes : List UInt8) : Except EncodeError (BlockHeader × List UInt8) := do
  let (version, bytes) ← decodeU32 bytes
  let (prevBlockhash, bytes) ← decodeHash bytes
  let (merkleRoot, bytes) ← decodeHash bytes
  let (time, bytes) ← decodeU32 bytes
  let (bits, bytes) ← decodeU32 bytes
  let (nonce, bytes) ← decodeU32 bytes
  pure (⟨version, prevBlockhash, merkleRoot, time, bits, nonce⟩, bytes)

def decodeBlock (bytes : List UInt8) : Except EncodeError (Block × List UInt8) := do
  let (header, bytes) ← decodeBlockHeader bytes
  let (txdata, bytes) ← decodeVec sizes.transaction (decodeTransaction sizes) bytes
  pure (⟨header, txdata⟩, bytes)

/-! ## The bounds a value must keep to read back -/

/-- Every vector of an input within the decoder's allocation bound. -/
def TxIn.WithinLimits (input : TxIn) : Prop :=
  input.scriptSig.bytes.length ≤ maxVecSize ∧ input.witness.length * sizes.witnessElement ≤ maxVecSize ∧
    ∀ element ∈ input.witness, element.length ≤ maxVecSize

def Transaction.WithinLimits (tx : Transaction) : Prop :=
  tx.input.length * sizes.txIn ≤ maxVecSize ∧ tx.output.length * sizes.txOut ≤ maxVecSize ∧
    (∀ input ∈ tx.input, TxIn.WithinLimits sizes input) ∧ ∀ output ∈ tx.output, output.scriptPubkey.bytes.length ≤ maxVecSize

def Block.WithinLimits (block : Block) : Prop :=
  block.txdata.length * sizes.transaction ≤ maxVecSize ∧ ∀ tx ∈ block.txdata, Transaction.WithinLimits sizes tx

instance (input : TxIn) : Decidable (TxIn.WithinLimits sizes input) := inferInstanceAs (Decidable (_ ∧ _ ∧ _))

instance (tx : Transaction) : Decidable (Transaction.WithinLimits sizes tx) :=
  inferInstanceAs (Decidable (_ ∧ _ ∧ _ ∧ _))

instance (block : Block) : Decidable (Block.WithinLimits sizes block) := inferInstanceAs (Decidable (_ ∧ _))

end Transactions

section RoundTrip
variable {sizes : ElementSizes}

theorem decodeWitnesses_encode {inputs : List TxIn} (limits : ∀ input ∈ inputs, TxIn.WithinLimits sizes input)
    (rest : List UInt8) :
    decodeWitnesses sizes (inputs.map fun input => { input with witness := [] })
      (inputs.flatMap (fun input => encodeVec encodeBytes input.witness) ++ rest) = .ok (inputs, rest) := by
  induction inputs with
  | nil => rfl
  | cons input others ih =>
    obtain ⟨-, count, elements⟩ := limits input (List.mem_cons_self _ _)
    have witness := decodeVec_encodeVec sizes.witnessElement decodeBytes encodeBytes id input.witness
      sizes.witnessElement_pos count fun element mem => decodeBytes_encodeBytes (elements element mem)
    simp [decodeWitnesses, List.append_assoc, witness, ih fun other mem => limits other (List.mem_cons_of_mem _ mem)]

theorem decodeBlockHeader_encode (header : BlockHeader) (rest : List UInt8) :
    decodeBlockHeader (header.encode ++ rest) = .ok (header, rest) := by
  simp [decodeBlockHeader, BlockHeader.encode, List.append_assoc, decodeU32_encodeU32, decodeHash_bytes]

theorem hasWitness_eq_false {tx : Transaction} (legacy : tx.hasWitness = false) :
    tx.input ≠ [] ∧ ∀ input ∈ tx.input, input.witness = [] := by
  simpa [Transaction.hasWitness] using legacy

/-- A transaction within the bounds reads back whole, in either of its two forms. -/
theorem decodeTransaction_encode {tx : Transaction} (limits : Transaction.WithinLimits sizes tx) (rest : List UInt8) :
    decodeTransaction sizes (tx.encode ++ rest) = .ok (tx, rest) := by
  obtain ⟨inputCount, outputCount, inputs, outputs⟩ := limits
  have readInputs := decodeVec_encodeVec sizes.txIn decodeTxIn TxIn.encode (fun input => { input with witness := [] })
    tx.input sizes.txIn_pos inputCount fun input mem => decodeTxIn_encode_witness (inputs input mem).1
  have readOutputs := decodeVec_encodeVec sizes.txOut decodeTxOut TxOut.encode id tx.output sizes.txOut_pos
    outputCount fun output mem => decodeTxOut_encode (outputs output mem)
  unfold Transaction.encode
  split_ifs with witnessed
  · have marker : ∀ bytes, decodeVec sizes.txIn decodeTxIn (0x00 :: bytes) = .ok ([], bytes) := by
      intro bytes
      simp [decodeVec, decodeVarInt, decodeItems]
    simp [decodeTransaction, List.append_assoc, decodeU32_encodeU32, marker, readInputs, readOutputs,
      decodeWitnesses_encode inputs]
    exact (by simpa [Transaction.hasWitness] using witnessed : tx.input = [] ∨ _).resolve_left
  · obtain ⟨nonempty, noWitness⟩ := hasWitness_eq_false (by simpa using witnessed)
    have stripped : (tx.input.map fun input => { input with witness := [] }) = tx.input := by
      conv_rhs => rw [← List.map_id tx.input]
      exact List.map_congr_left fun input mem => by have := noWitness input mem; cases input; simp_all
    simp [decodeTransaction, List.append_assoc, decodeU32_encodeU32, readInputs, readOutputs, stripped, nonempty]
/-- A block within the bounds reads back whole. -/
theorem decodeBlock_encode {block : Block} (limits : Block.WithinLimits sizes block) (rest : List UInt8) :
    decodeBlock sizes (block.encode ++ rest) = .ok (block, rest) := by
  have txdata := decodeVec_encodeVec sizes.transaction (decodeTransaction sizes) Transaction.encode id block.txdata
    sizes.transaction_pos limits.1 fun tx mem => decodeTransaction_encode (limits.2 tx mem)
  simp [decodeBlock, Block.encode, List.append_assoc, decodeBlockHeader_encode, txdata]

end RoundTrip

/-! ## What the bounds refuse -/

section Refusals
variable {sizes : ElementSizes}

end Refusals

/-! ## What the decoder accepts

Every length and integer has one encoding the decoder accepts: a `VarInt` must be minimal and
a length must be followed by that many bytes. So the bytes a value was read from are the
value's own encoding; and the value passed the allocation checks, so it is within the bounds
the round trip asks for. -/

theorem readInt_ok {width value : Nat} {bytes rest : List UInt8} (read : readInt width bytes = .ok (value, rest)) :
    bytes = toLeBytes width value ++ rest ∧ value < 256 ^ width := by
  unfold readInt at read
  split at read
  · cases read
    exact readLe_ok ‹_›
  · cases read

theorem eq_encodeU32_of_decodeU32 {bytes rest : List UInt8} {value : UInt32}
    (read : decodeU32 bytes = .ok (value, rest)) : bytes = encodeU32 value ++ rest := by
  unfold decodeU32 at read
  obtain ⟨⟨number, after⟩, first, read⟩ := Except.bind_eq_ok.1 read
  cases read
  obtain ⟨rfl, fits⟩ := readInt_ok first
  simp [encodeU32, Nat.mod_eq_of_lt (show number < 4294967296 by simpa using fits)]

theorem eq_encodeU64_of_decodeU64 {bytes rest : List UInt8} {value : UInt64}
    (read : decodeU64 bytes = .ok (value, rest)) : bytes = encodeU64 value ++ rest := by
  unfold decodeU64 at read
  obtain ⟨⟨number, after⟩, first, read⟩ := Except.bind_eq_ok.1 read
  cases read
  obtain ⟨rfl, fits⟩ := readInt_ok first
  simp [encodeU64, Nat.mod_eq_of_lt (show number < 18446744073709551616 by simpa using fits)]

theorem eq_bytes_of_decodeHash {bytes rest : List UInt8} {hash : FixedBytes 32}
    (read : decodeHash bytes = .ok (hash, rest)) : bytes = hash.bytes ++ rest := by
  unfold decodeHash at read
  split_ifs at read
  cases read
  simp

theorem eq_toLeBytes_of_decodeVarIntPayload {width minimum n : Nat} {bytes rest : List UInt8}
    (read : decodeVarIntPayload width minimum bytes = .ok (n, rest)) :
    bytes = toLeBytes width n ++ rest ∧ n < 256 ^ width ∧ minimum ≤ n := by
  unfold decodeVarIntPayload at read
  obtain ⟨⟨value, remaining⟩, first, read⟩ := Except.bind_eq_ok.1 read
  dsimp only at read
  split_ifs at read with small
  simp only [pure, Except.pure, Except.ok.injEq, Prod.mk.injEq] at read
  obtain ⟨rfl, rfl⟩ := read
  exact ⟨(readInt_ok first).1, (readInt_ok first).2, by omega⟩

/-- The minimality check makes the prefix the one `encodeVarInt` writes for the value read. -/
theorem eq_encodeVarInt_of_decodeVarInt {bytes rest : List UInt8} {n : Nat}
    (read : decodeVarInt bytes = .ok (n, rest)) : bytes = encodeVarInt n ++ rest ∧ n < 2 ^ 64 := by
  rcases bytes with _ | ⟨marker, after⟩
  · cases read
  simp only [decodeVarInt] at read
  split_ifs at read with eight four two
  · obtain ⟨rfl, fits, least⟩ := eq_toLeBytes_of_decodeVarIntPayload read
    refine ⟨?_, by simpa using fits⟩
    simp [encodeVarInt, eight, show ¬n < 253 by omega, show ¬n ≤ 65535 by omega, show ¬n ≤ 4294967295 by omega]
  · obtain ⟨rfl, fits, least⟩ := eq_toLeBytes_of_decodeVarIntPayload read
    simp only [Nat.reducePow] at fits
    refine ⟨?_, by omega⟩
    simp [encodeVarInt, four, show ¬n < 253 by omega, show ¬n ≤ 65535 by omega, show n ≤ 4294967295 by omega]
  · obtain ⟨rfl, fits, least⟩ := eq_toLeBytes_of_decodeVarIntPayload read
    simp only [Nat.reducePow] at fits
    refine ⟨?_, by omega⟩
    simp [encodeVarInt, two, show ¬n < 253 by omega, show n ≤ 65535 by omega]
  · cases read
    have small : marker.toNat < 253 := by
      have := marker.toNat_lt
      have e8 : marker.toNat ≠ 255 := fun same => eight (UInt8.eq_iff_toNat.2 same)
      have e4 : marker.toNat ≠ 254 := fun same => four (UInt8.eq_iff_toNat.2 same)
      have e2 : marker.toNat ≠ 253 := fun same => two (UInt8.eq_iff_toNat.2 same)
      omega
    exact ⟨by simp [encodeVarInt, small], by omega⟩

theorem eq_encode_of_decodeOutPoint {bytes rest : List UInt8} {outpoint : OutPoint}
    (read : decodeOutPoint bytes = .ok (outpoint, rest)) : bytes = outpoint.encode ++ rest := by
  unfold decodeOutPoint at read
  obtain ⟨⟨txid, after⟩, first, read⟩ := Except.bind_eq_ok.1 read
  obtain ⟨⟨vout, after'⟩, second, read⟩ := Except.bind_eq_ok.1 read
  cases read
  rw [eq_bytes_of_decodeHash first, eq_encodeU32_of_decodeU32 second]
  simp [OutPoint.encode]

theorem eq_encode_of_decodeBlockHeader {bytes rest : List UInt8} {header : BlockHeader}
    (read : decodeBlockHeader bytes = .ok (header, rest)) : bytes = header.encode ++ rest := by
  unfold decodeBlockHeader at read
  obtain ⟨⟨_, _⟩, version, read⟩ := Except.bind_eq_ok.1 read
  obtain ⟨⟨_, _⟩, prevBlockhash, read⟩ := Except.bind_eq_ok.1 read
  obtain ⟨⟨_, _⟩, merkleRoot, read⟩ := Except.bind_eq_ok.1 read
  obtain ⟨⟨_, _⟩, time, read⟩ := Except.bind_eq_ok.1 read
  obtain ⟨⟨_, _⟩, bits, read⟩ := Except.bind_eq_ok.1 read
  obtain ⟨⟨_, _⟩, nonce, read⟩ := Except.bind_eq_ok.1 read
  cases read
  rw [eq_encodeU32_of_decodeU32 version, eq_bytes_of_decodeHash prevBlockhash, eq_bytes_of_decodeHash merkleRoot,
    eq_encodeU32_of_decodeU32 time, eq_encodeU32_of_decodeU32 bits, eq_encodeU32_of_decodeU32 nonce]
  simp [BlockHeader.encode]

theorem encodeVec_congr {α : Type} {encode : α → List UInt8} {items items' : List α}
    (same : items.map encode = items'.map encode) : encodeVec encode items = encodeVec encode items' := by
  have length := congrArg List.length same
  simp only [List.length_map] at length
  simp only [encodeVec, List.flatMap_def, same, length]

theorem decodeBytes_ok {bytes data rest : List UInt8} (read : decodeBytes bytes = .ok (data, rest)) :
    bytes = encodeBytes data ++ rest ∧ data.length ≤ maxVecSize := by
  unfold decodeBytes at read
  obtain ⟨⟨length, after⟩, first, read⟩ := Except.bind_eq_ok.1 read
  simp [throw, throwThe, MonadExceptOf.throw] at read
  split_ifs at read with large short
  obtain ⟨rfl, rfl⟩ := read
  obtain ⟨rfl, -⟩ := eq_encodeVarInt_of_decodeVarInt first
  have taken : (after.take length).length = length := List.length_take_of_le (by omega)
  exact ⟨by simp [encodeBytes, taken], by rw [taken]; omega⟩

theorem decodeItems_ok {α : Type} {decode : List UInt8 → Except EncodeError (α × List UInt8)}
    {encode : α → List UInt8} {good : α → Prop}
    (sound : ∀ {bytes item rest}, decode bytes = .ok (item, rest) → bytes = encode item ++ rest ∧ good item)
    {count : Nat} {bytes rest : List UInt8} {items : List α} (read : decodeItems decode count bytes = .ok (items, rest)) :
    items.length = count ∧ bytes = items.flatMap encode ++ rest ∧ ∀ item ∈ items, good item := by
  induction count generalizing bytes items rest with
  | zero => cases read; simp
  | succ count ih =>
    obtain ⟨⟨item, after⟩, first, read⟩ := Except.bind_eq_ok.1 read
    obtain ⟨⟨others, after'⟩, remaining, read⟩ := Except.bind_eq_ok.1 read
    cases read
    obtain ⟨encoded, goodItem⟩ := sound first
    obtain ⟨length, encodedOthers, goodOthers⟩ := ih remaining
    exact ⟨by simp [length], by simp [encoded, encodedOthers], by simpa [goodItem] using goodOthers⟩

theorem decodeVec_ok {α : Type} {elementSize : Nat} {decode : List UInt8 → Except EncodeError (α × List UInt8)}
    {encode : α → List UInt8} {good : α → Prop}
    (sound : ∀ {bytes item rest}, decode bytes = .ok (item, rest) → bytes = encode item ++ rest ∧ good item)
    {bytes rest : List UInt8} {items : List α} (read : decodeVec elementSize decode bytes = .ok (items, rest)) :
    bytes = encodeVec encode items ++ rest ∧ items.length * elementSize ≤ maxVecSize ∧ ∀ item ∈ items, good item := by
  unfold decodeVec at read
  obtain ⟨⟨count, after⟩, first, read⟩ := Except.bind_eq_ok.1 read
  simp [throw, throwThe, MonadExceptOf.throw] at read
  split_ifs at read with huge large
  obtain ⟨rfl, encoded, goodItems⟩ := decodeItems_ok sound read
  rw [(eq_encodeVarInt_of_decodeVarInt first).1, encoded]
  exact ⟨by simp [encodeVec], by omega, goodItems⟩

theorem decodeTxIn_ok {bytes rest : List UInt8} {input : TxIn} (read : decodeTxIn bytes = .ok (input, rest)) :
    bytes = input.encode ++ rest ∧ input.witness = [] ∧ input.scriptSig.bytes.length ≤ maxVecSize := by
  unfold decodeTxIn at read
  obtain ⟨⟨_, _⟩, outpoint, read⟩ := Except.bind_eq_ok.1 read
  obtain ⟨⟨_, _⟩, script, read⟩ := Except.bind_eq_ok.1 read
  obtain ⟨⟨_, _⟩, sequence, read⟩ := Except.bind_eq_ok.1 read
  cases read
  obtain ⟨encodedScript, small⟩ := decodeBytes_ok script
  rw [eq_encode_of_decodeOutPoint outpoint, encodedScript, eq_encodeU32_of_decodeU32 sequence]
  exact ⟨by simp [TxIn.encode], rfl, small⟩

/-- `deserialize` reads as inputs exactly the encodings of the inputs without a witness whose
script is within the bound. -/
theorem deserialize_decodeTxIn_iff {bytes : List UInt8} {input : TxIn} :
    deserialize decodeTxIn bytes = .ok input ↔
      bytes = input.encode ∧ input.witness = [] ∧ input.scriptSig.bytes.length ≤ maxVecSize :=
  deserialize_iff (fun input => input.witness = [] ∧ input.scriptSig.bytes.length ≤ maxVecSize)
    (fun valid => decodeTxIn_encode valid.1 valid.2) decodeTxIn_ok

theorem decodeTxOut_ok {bytes rest : List UInt8} {output : TxOut} (read : decodeTxOut bytes = .ok (output, rest)) :
    bytes = output.encode ++ rest ∧ output.scriptPubkey.bytes.length ≤ maxVecSize := by
  unfold decodeTxOut at read
  obtain ⟨⟨_, _⟩, value, read⟩ := Except.bind_eq_ok.1 read
  obtain ⟨⟨_, _⟩, script, read⟩ := Except.bind_eq_ok.1 read
  cases read
  obtain ⟨encodedScript, small⟩ := decodeBytes_ok script
  rw [eq_encodeU64_of_decodeU64 value, encodedScript]
  exact ⟨by simp [TxOut.encode], small⟩

section Accepted

variable {sizes : ElementSizes}

theorem decodeWitnesses_ok {inputs : List TxIn} (scripts : ∀ input ∈ inputs, input.scriptSig.bytes.length ≤ maxVecSize)
    {bytes rest : List UInt8} {witnessed : List TxIn} (read : decodeWitnesses sizes inputs bytes = .ok (witnessed, rest)) :
    witnessed.map TxIn.encode = inputs.map TxIn.encode ∧
      bytes = witnessed.flatMap (fun input => encodeVec encodeBytes input.witness) ++ rest ∧
      ∀ input ∈ witnessed, TxIn.WithinLimits sizes input := by
  induction inputs generalizing bytes witnessed rest with
  | nil => cases read; simp
  | cons input others ih =>
    obtain ⟨⟨witness, _⟩, readWitness, read⟩ := Except.bind_eq_ok.1 read
    obtain ⟨⟨others', _⟩, readOthers, read⟩ := Except.bind_eq_ok.1 read
    cases read
    obtain ⟨encoded, count, elements⟩ := decodeVec_ok decodeBytes_ok readWitness
    obtain ⟨same, rfl, limits⟩ := ih (fun other mem => scripts other (List.mem_cons_of_mem _ mem)) readOthers
    refine ⟨by simpa [TxIn.encode] using same, by rw [encoded]; simp, ?_⟩
    simp only [List.mem_cons, forall_eq_or_imp]
    exact ⟨⟨scripts input (List.mem_cons_self _ _), count, elements⟩, limits⟩

theorem decodeTransaction_ok {bytes rest : List UInt8} {tx : Transaction}
    (read : decodeTransaction sizes bytes = .ok (tx, rest)) :
    bytes = tx.encode ++ rest ∧ Transaction.WithinLimits sizes tx := by
  unfold decodeTransaction at read
  obtain ⟨⟨version, after⟩, readVersion, read⟩ := Except.bind_eq_ok.1 read
  obtain ⟨⟨inputs, after⟩, readInputs, read⟩ := Except.bind_eq_ok.1 read
  obtain ⟨encodedInputs, inputCount, inputLimits⟩ := decodeVec_ok decodeTxIn_ok readInputs
  rw [eq_encodeU32_of_decodeU32 readVersion, encodedInputs]
  by_cases marker : inputs.isEmpty
  · -- the witness form: the empty input vector is the marker, then a flag of 1, the inputs
    -- and outputs, and the witnesses
    rcases after with _ | ⟨flag, after⟩
    · simp [marker, throw, throwThe, MonadExceptOf.throw] at read
    by_cases one : flag = 1
    · simp only [marker, one, if_true] at read
      obtain ⟨⟨inputs', _⟩, readInputs', read⟩ := Except.bind_eq_ok.1 read
      obtain ⟨⟨outputs, _⟩, readOutputs, read⟩ := Except.bind_eq_ok.1 read
      obtain ⟨⟨witnessed, _⟩, readWitnesses, read⟩ := Except.bind_eq_ok.1 read
      split at read
      · simp [throw, throwThe, MonadExceptOf.throw] at read
      rename_i witnessFound
      obtain ⟨⟨lockTime, _⟩, readLockTime, read⟩ := Except.bind_eq_ok.1 read
      cases read
      dsimp only at readOutputs readWitnesses witnessFound readLockTime
      obtain ⟨encodedInputs', inputCount', inputLimits'⟩ := decodeVec_ok decodeTxIn_ok readInputs'
      obtain ⟨encodedOutputs, outputCount, outputLimits⟩ := decodeVec_ok decodeTxOut_ok readOutputs
      obtain ⟨same, witnesses, limits⟩ :=
        decodeWitnesses_ok (fun input mem => (inputLimits' input mem).2) readWitnesses
      have witness : Transaction.hasWitness ⟨version, lockTime, witnessed, outputs⟩ = true := by
        simpa [Transaction.hasWitness, List.isEmpty_iff, or_iff_not_imp_left] using witnessFound
      have length : witnessed.length = inputs'.length := by simpa using congrArg List.length same
      refine ⟨?_, length ▸ inputCount', outputCount, limits, outputLimits⟩
      rw [encodedInputs', encodedOutputs, witnesses, eq_encodeU32_of_decodeU32 readLockTime,
        List.isEmpty_iff.1 marker, encodeVec_congr same.symm]
      simp [Transaction.encode, witness, encodeVec, encodeVarInt, one]
    · simp [marker, one, throw, throwThe, MonadExceptOf.throw] at read
  · -- the legacy form: inputs without witnesses, then the outputs
    simp only [marker, Bool.false_eq_true, if_false] at read
    obtain ⟨⟨outputs, _⟩, readOutputs, read⟩ := Except.bind_eq_ok.1 read
    obtain ⟨⟨lockTime, _⟩, readLockTime, read⟩ := Except.bind_eq_ok.1 read
    cases read
    dsimp only at readLockTime
    obtain ⟨encodedOutputs, outputCount, outputLimits⟩ := decodeVec_ok decodeTxOut_ok readOutputs
    have legacy : Transaction.hasWitness ⟨version, lockTime, inputs, outputs⟩ = false := by
      simpa [Transaction.hasWitness, marker] using fun input mem => (inputLimits input mem).1
    refine ⟨?_, inputCount, outputCount, fun input mem => ?_, outputLimits⟩
    · rw [encodedOutputs, eq_encodeU32_of_decodeU32 readLockTime]
      simp [Transaction.encode, legacy]
    · obtain ⟨noWitness, script⟩ := inputLimits input mem
      exact ⟨script, by simp [noWitness], by simp [noWitness]⟩

theorem decodeBlock_ok {bytes rest : List UInt8} {block : Block} (read : decodeBlock sizes bytes = .ok (block, rest)) :
    bytes = block.encode ++ rest ∧ Block.WithinLimits sizes block := by
  unfold decodeBlock at read
  obtain ⟨⟨_, _⟩, header, read⟩ := Except.bind_eq_ok.1 read
  obtain ⟨⟨_, _⟩, txdata, read⟩ := Except.bind_eq_ok.1 read
  cases read
  obtain ⟨encoded, count, limits⟩ := decodeVec_ok decodeTransaction_ok txdata
  rw [eq_encode_of_decodeBlockHeader header, encoded]
  exact ⟨by simp [Block.encode], count, limits⟩

/-- `deserialize` reads as blocks exactly the encodings of the blocks within the bounds. -/
theorem deserialize_decodeBlock_iff {bytes : List UInt8} {block : Block} :
    deserialize (decodeBlock sizes) bytes = .ok block ↔ bytes = block.encode ∧ Block.WithinLimits sizes block :=
  deserialize_iff (Block.WithinLimits sizes) (fun limits => decodeBlock_encode limits) decodeBlock_ok

end Accepted


/-- `mem::size_of` on the enclave's 64-bit target: an input is its 36-byte outpoint, its
sequence, a boxed script and a witness vector; an output a value and a boxed script; a
transaction two integers and two vectors; a witness element one vector. -/
def targetSizes : ElementSizes := ⟨80, 24, 56, 24, by decide, by decide, by decide, by decide⟩

end PtokensCore.Bitcoin

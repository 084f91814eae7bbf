import PtokensCore.Utils

/-! The stored form of a block, from `btc_utils.rs`.

`serialize_btc_block_in_db_format` writes the record as a JSON object of five byte vectors:
the id, the consensus encoding of the block, the height as eight bytes, the extra data, and
the minting parameters as JSON text of their own. The key it is stored under is the id.
`deserialize_btc_block_in_db_format` reads the object back and decodes each part in the
order of `BtcBlockInDbFormat::new`'s arguments. Everything but the block reads back on every
record; the block reads back exactly when the consensus decoder accepts its encoding, which
depends on the sizes of the element types it allocates vectors of.
-/

set_option autoImplicit false

namespace PtokensCore.Btc

open PtokensCore.Bitcoin PtokensCore.SerdeJson

/-! ## The parts -/

/-- `sha256d::Hash::from_slice`: exactly 32 bytes. -/
def sha256dFromSlice (slice : List UInt8) : Result (FixedBytes 32) :=
  match FixedBytes.fromSlice? slice with
  | some hash => .ok hash
  | none => .error (.error (.hashesInvalidLength 32 slice.length))

/-- `consensus::encode::deserialize`, its error through the crate's `From`. -/
def btcDeserialize {α : Type} (decode : List UInt8 → Except EncodeError (α × List UInt8)) (bytes : List UInt8) :
    Result α :=
  (deserialize decode bytes).mapError (.error ∘ .bitcoinEncode)

/-- A `serde_json` result through the crate's `From`. -/
def fromJson {α : Type} (result : Except SerdeJson.Error α) : Result α := result.mapError (.error ∘ .serdeJson)

def mintingParamFields : List String := ["amount", "eth_address", "originating_tx_hash", "originating_tx_address"]

def MintingParamStruct.toValue (param : MintingParamStruct) : Value :=
  structValue (mintingParamFields.zip [u256Value param.amount, h160Value param.ethAddress,
    sha256dValue param.originatingTxHash, stringValue param.originatingTxAddress])

/-- The derived `Deserialize` of `MintingParamStruct`. The struct reader gives one value per
field, so the last case is never taken. -/
def readMintingParamStruct (value : Value) : Except SerdeJson.Error MintingParamStruct := do
  match ← readStruct mintingParamFields value with
  | [amount, ethAddress, originatingTxHash, originatingTxAddress] =>
    pure ⟨← readU256 amount, ← readH160 ethAddress, ← readSha256d originatingTxHash,
      ← readString originatingTxAddress⟩
  | _ => throw (.message "invalid length")

def serializeMintingParams (mintingParams : MintingParams) : Result (List UInt8) :=
  .ok (seqValue MintingParamStruct.toValue mintingParams).write

def deserializeMintingParams (serializedMintingParams : List UInt8) : Result MintingParams :=
  fromJson (fromSlice (readSeq readMintingParamStruct) serializedMintingParams)

/-! ## The record -/

/-- `SerializedBlockInDbFormat`: the parts of a record, each already bytes. -/
structure SerializedBlockInDbFormat where
  id : List UInt8
  block : List UInt8
  height : List UInt8
  extraData : List UInt8
  mintingParams : List UInt8
  deriving DecidableEq

def serializedBlockFields : List String := ["id", "block", "height", "extra_data", "minting_params"]

def SerializedBlockInDbFormat.toValue (serialized : SerializedBlockInDbFormat) : Value :=
  structValue (serializedBlockFields.zip [bytesValue serialized.id, bytesValue serialized.block,
    bytesValue serialized.height, bytesValue serialized.extraData, bytesValue serialized.mintingParams])

/-- The derived `Deserialize` of `SerializedBlockInDbFormat`; as for a minting parameter,
the last case is never taken. -/
def readSerializedBlockInDbFormat (value : Value) : Except SerdeJson.Error SerializedBlockInDbFormat := do
  match ← readStruct serializedBlockFields value with
  | [id, block, height, extraData, mintingParams] =>
    pure ⟨← readBytes id, ← readBytes block, ← readBytes height, ← readBytes extraData, ← readBytes mintingParams⟩
  | _ => throw (.message "invalid length")

/-- `BtcBlockInDbFormat::new`. Modelled from the spec: the record of its arguments. -/
def BtcBlockInDbFormat.new (height : UInt64) (id : FixedBytes 32) (mintingParams : MintingParams) (block : Block)
    (extraData : List UInt8) : Result BtcBlockInDbFormat :=
  .ok ⟨height, id, mintingParams, block, extraData⟩

def getBtcBlockInDbFormat (btcBlockAndId : BtcBlockAndId) (mintingParams : MintingParams) (extraData : List UInt8) :
    Result BtcBlockInDbFormat :=
  BtcBlockInDbFormat.new btcBlockAndId.height btcBlockAndId.id mintingParams btcBlockAndId.block extraData

def serializeBtcBlockInDbFormat (btcBlockInDbFormat : BtcBlockInDbFormat) : Result (List UInt8 × List UInt8) := do
  let serializedId := btcBlockInDbFormat.id.bytes
  pure (serializedId,
    (SerializedBlockInDbFormat.toValue ⟨serializedId, btcBlockInDbFormat.block.encode,
      convertU64ToBytes btcBlockInDbFormat.height, btcBlockInDbFormat.extraData,
      ← serializeMintingParams btcBlockInDbFormat.mintingParams⟩).write)

/-- The block decoder allocates vectors by the sizes of their elements, so the record is read
for given `sizes`. -/
def deserializeBtcBlockInDbFormat (sizes : ElementSizes) (serializedBlockInDbFormat : List UInt8) :
    Result BtcBlockInDbFormat := do
  let serializedStruct ← fromJson (fromSlice readSerializedBlockInDbFormat serializedBlockInDbFormat)
  BtcBlockInDbFormat.new (← convertBytesToU64 serializedStruct.height) (← sha256dFromSlice serializedStruct.id)
    (← deserializeMintingParams serializedStruct.mintingParams) (← btcDeserialize (decodeBlock sizes) serializedStruct.block)
    serializedStruct.extraData

def convertBtcNetworkToBytes (network : Network) : Result (List UInt8) :=
  match network with
  | .bitcoin => .ok (convertU64ToBytes 0)
  | .testnet => .ok (convertU64ToBytes 1)
  | .regtest => .ok (convertU64ToBytes 2)

/-- Any number other than 1 and 2 is read as `Bitcoin`. -/
def convertBytesToBtcNetwork (bytes : List UInt8) : Result Network := do
  match ← convertBytesToU64 bytes with
  | 1 => pure .testnet
  | 2 => pure .regtest
  | _ => pure .bitcoin

/-! ## The parts read back -/

section Parts

@[simp] theorem fromJson_ok {α : Type} (value : α) : fromJson (.ok value) = .ok value := rfl

theorem sha256dFromSlice_bytes (hash : FixedBytes 32) : sha256dFromSlice hash.bytes = .ok hash := by
  simp [sha256dFromSlice]

theorem eq_bytes_of_sha256dFromSlice {slice : List UInt8} {hash : FixedBytes 32}
    (read : sha256dFromSlice slice = .ok hash) : slice = hash.bytes := by
  unfold sha256dFromSlice FixedBytes.fromSlice? at read
  split_ifs at read with exact
  cases read
  rfl

theorem ok_of_fromJson {α : Type} {result : Except SerdeJson.Error α} {value : α}
    (read : fromJson result = .ok value) : result = .ok value := by
  cases result <;> simp_all [fromJson, Except.mapError]

theorem btcDeserialize_of_decode {α : Type} {decode : List UInt8 → Except EncodeError (α × List UInt8)}
    {bytes : List UInt8} {value : α} (read : decode (bytes ++ []) = .ok (value, [])) :
    btcDeserialize decode bytes = .ok value := by
  simp [btcDeserialize, deserialize_of_decode read, Except.mapError]

theorem btcDeserialize_ok {α : Type} {decode : List UInt8 → Except EncodeError (α × List UInt8)}
    {bytes : List UInt8} {value : α} (read : btcDeserialize decode bytes = .ok value) :
    deserialize decode bytes = .ok value := by
  cases decoded : deserialize decode bytes <;> simp_all [btcDeserialize, Except.mapError]

theorem written_mintingParamStruct (param : MintingParamStruct) : Written param.toValue :=
  written_structValue (by simp [mintingParamFields, written_stringValue]; exact ⟨.string _, .string _, .string _⟩)

theorem readMintingParamStruct_toValue (param : MintingParamStruct) :
    readMintingParamStruct param.toValue = .ok param := by
  rw [readMintingParamStruct, MintingParamStruct.toValue, readStruct_zip rfl (by decide) (by decide)]
  simp [readU256_u256Value, readH160_h160Value, readSha256d_sha256dValue, readString_stringValue]

theorem written_mintingParams (mintingParams : MintingParams) :
    Written (seqValue MintingParamStruct.toValue mintingParams) :=
  written_seqValue written_mintingParamStruct mintingParams

/-- Every list of minting parameters reads back from the JSON text it is written as. -/
theorem deserializeMintingParams_write (mintingParams : MintingParams) :
    deserializeMintingParams (seqValue MintingParamStruct.toValue mintingParams).write = .ok mintingParams := by
  rw [deserializeMintingParams, fromSlice_write _ (written_mintingParams mintingParams),
    readSeq_seqValue readMintingParamStruct_toValue]
  rfl

theorem written_serializedBlockInDbFormat (serialized : SerializedBlockInDbFormat) : Written serialized.toValue :=
  written_structValue (by simp [serializedBlockFields, written_bytesValue])

theorem readSerializedBlockInDbFormat_toValue (serialized : SerializedBlockInDbFormat) :
    readSerializedBlockInDbFormat serialized.toValue = .ok serialized := by
  rw [readSerializedBlockInDbFormat, SerializedBlockInDbFormat.toValue, readStruct_zip rfl (by decide) (by decide)]
  simp [readBytes_bytesValue]

end Parts

/-! ## The record read back -/

section Record

/-- The JSON text a record is stored as. -/
def writtenRecord (record : BtcBlockInDbFormat) : List UInt8 :=
  (SerializedBlockInDbFormat.toValue ⟨record.id.bytes, record.block.encode, convertU64ToBytes record.height,
    record.extraData, (seqValue MintingParamStruct.toValue record.mintingParams).write⟩).write

theorem serializeBtcBlockInDbFormat_eq (record : BtcBlockInDbFormat) :
    serializeBtcBlockInDbFormat record = .ok (record.id.bytes, writtenRecord record) := rfl

/-- The envelope is transparent: reading a stored record back gives the record with the block
the consensus decoder reads from the block's encoding, or that decoder's error. -/
theorem deserializeBtcBlockInDbFormat_writtenRecord (sizes : ElementSizes) (record : BtcBlockInDbFormat) :
    deserializeBtcBlockInDbFormat sizes (writtenRecord record) =
      (btcDeserialize (decodeBlock sizes) record.block.encode).map fun block => { record with block } := by
  rw [deserializeBtcBlockInDbFormat, writtenRecord, fromSlice_write _ (written_serializedBlockInDbFormat _),
    readSerializedBlockInDbFormat_toValue]
  simp only [fromJson_ok, Except.ok_bind, convertBytesToU64_convertU64ToBytes, sha256dFromSlice_bytes,
    deserializeMintingParams_write]
  cases btcDeserialize (decodeBlock sizes) record.block.encode <;> rfl

theorem deserializeBtcBlockInDbFormat_writtenRecord_ok {sizes : ElementSizes} {record : BtcBlockInDbFormat}
    (limits : Block.WithinLimits sizes record.block) :
    deserializeBtcBlockInDbFormat sizes (writtenRecord record) = .ok record := by
  rw [deserializeBtcBlockInDbFormat_writtenRecord, btcDeserialize_of_decode (decodeBlock_encode limits [])]
  rfl

theorem block_of_deserializeBtcBlockInDbFormat {sizes : ElementSizes} {serialized : List UInt8}
    {record : BtcBlockInDbFormat} (read : deserializeBtcBlockInDbFormat sizes serialized = .ok record) :
    ∃ bytes, btcDeserialize (decodeBlock sizes) bytes = .ok record.block := by
  unfold deserializeBtcBlockInDbFormat at read
  obtain ⟨_, -, read⟩ := Except.bind_eq_ok.1 read
  obtain ⟨_, -, read⟩ := Except.bind_eq_ok.1 read
  obtain ⟨_, -, read⟩ := Except.bind_eq_ok.1 read
  obtain ⟨_, -, read⟩ := Except.bind_eq_ok.1 read
  obtain ⟨block, decoded, read⟩ := Except.bind_eq_ok.1 read
  cases read
  exact ⟨_, decoded⟩

end Record

/-- The reader only returns records it can store again. -/
theorem deserialized_btc_block_in_db_format_round_trips (sizes : ElementSizes) (serialized : List UInt8)
    (record : BtcBlockInDbFormat) (read : deserializeBtcBlockInDbFormat sizes serialized = .ok record) :
    Block.WithinLimits sizes record.block ∧
      ∃ serialized', serializeBtcBlockInDbFormat record = .ok (record.id.bytes, serialized') ∧
        deserializeBtcBlockInDbFormat sizes serialized' = .ok record := by
  obtain ⟨bytes, decoded⟩ := block_of_deserializeBtcBlockInDbFormat read
  have limits := (decodeBlock_ok (deserialize_ok (btcDeserialize_ok decoded))).2
  exact ⟨limits, _, serializeBtcBlockInDbFormat_eq record, deserializeBtcBlockInDbFormat_writtenRecord_ok limits⟩

theorem deserialized_btc_block_in_db_format_round_trips_one_transaction :
    let record : BtcBlockInDbFormat :=
      ⟨7, ⟨List.replicate 32 1, rfl⟩, [], ⟨⟨1, ⟨List.replicate 32 0, rfl⟩, ⟨List.replicate 32 0, rfl⟩, 0, 0, 0⟩,
        [⟨1, 0, [⟨⟨⟨List.replicate 32 7, rfl⟩, 0⟩, ⟨[0x51]⟩, 0xffffffff, []⟩], [⟨5000, ⟨[0x51]⟩⟩]⟩]⟩, [2]⟩
    deserializeBtcBlockInDbFormat targetSizes (writtenRecord record) = .ok record ∧
      Block.WithinLimits targetSizes record.block ∧
        ∃ serialized', serializeBtcBlockInDbFormat record = .ok (record.id.bytes, serialized') ∧
          deserializeBtcBlockInDbFormat targetSizes serialized' = .ok record := by
  intro record
  have read : deserializeBtcBlockInDbFormat targetSizes (writtenRecord record) = .ok record :=
    deserializeBtcBlockInDbFormat_writtenRecord_ok (by decide)
  exact ⟨read, deserialized_btc_block_in_db_format_round_trips targetSizes _ record read⟩

/-- The reader accepts a record only from the fields the writer gives it. -/
theorem deserialize_btc_block_in_db_format_reads_only_written_fields (sizes : ElementSizes)
    (serialized : List UInt8) (record : BtcBlockInDbFormat)
    (read : deserializeBtcBlockInDbFormat sizes serialized = .ok record) :
    ∃ stored : SerializedBlockInDbFormat, fromSlice readSerializedBlockInDbFormat serialized = .ok stored ∧
      stored.id = record.id.bytes ∧ stored.block = record.block.encode ∧
      stored.height = convertU64ToBytes record.height ∧ stored.extraData = record.extraData ∧
      deserializeMintingParams stored.mintingParams = .ok record.mintingParams := by
  unfold deserializeBtcBlockInDbFormat at read
  obtain ⟨stored, parsed, read⟩ := Except.bind_eq_ok.1 read
  obtain ⟨_, readHeight, read⟩ := Except.bind_eq_ok.1 read
  obtain ⟨_, readId, read⟩ := Except.bind_eq_ok.1 read
  obtain ⟨_, readMintingParams, read⟩ := Except.bind_eq_ok.1 read
  obtain ⟨_, readBlock, read⟩ := Except.bind_eq_ok.1 read
  cases read
  exact ⟨stored, ok_of_fromJson parsed, eq_bytes_of_sha256dFromSlice readId,
    (deserialize_decodeBlock_iff.1 (btcDeserialize_ok readBlock)).1, eq_convertU64ToBytes_of_convertBytesToU64 readHeight,
    rfl, readMintingParams⟩

theorem deserialize_btc_block_in_db_format_reads_only_written_fields_one_transaction :
    let record : BtcBlockInDbFormat :=
      ⟨7, ⟨List.replicate 32 1, rfl⟩, [], ⟨⟨1, ⟨List.replicate 32 0, rfl⟩, ⟨List.replicate 32 0, rfl⟩, 0, 0, 0⟩,
        [⟨1, 0, [⟨⟨⟨List.replicate 32 7, rfl⟩, 0⟩, ⟨[0x51]⟩, 0xffffffff, []⟩], [⟨5000, ⟨[0x51]⟩⟩]⟩]⟩, [2]⟩
    deserializeBtcBlockInDbFormat targetSizes (writtenRecord record) = .ok record ∧
      ∃ stored : SerializedBlockInDbFormat, fromSlice readSerializedBlockInDbFormat (writtenRecord record) = .ok stored ∧
        stored.id = record.id.bytes ∧ stored.block = record.block.encode ∧
        stored.height = convertU64ToBytes record.height ∧ stored.extraData = record.extraData ∧
        deserializeMintingParams stored.mintingParams = .ok record.mintingParams := by
  intro record
  have read : deserializeBtcBlockInDbFormat targetSizes (writtenRecord record) = .ok record :=
    deserializeBtcBlockInDbFormat_writtenRecord_ok (by decide)
  exact ⟨read, deserialize_btc_block_in_db_format_reads_only_written_fields targetSizes _ record read⟩

/-- Every list of minting parameters reads back from its JSON text. -/
theorem minting_params_round_trip (mintingParams : MintingParams) :
    ∃ serialized, serializeMintingParams mintingParams = .ok serialized ∧
      deserializeMintingParams serialized = .ok mintingParams :=
  ⟨_, rfl, deserializeMintingParams_write mintingParams⟩

end PtokensCore.Btc

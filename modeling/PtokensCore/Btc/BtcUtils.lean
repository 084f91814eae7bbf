import PtokensCore.Btc.Types
import Mathlib.Algebra.Order.BigOperators.Group.List

/-! The script, transaction and arithmetic helpers of `btc_utils.rs`.

Functions that return a plain value in Rust but can panic take any error type `ε`: they
never return `Err`. Integer arithmetic on `u64` and `usize` (64 bits on the enclave's
target) wraps, as it does in a release build.
-/

set_option autoImplicit false

namespace PtokensCore.Btc

open PtokensCore.Bitcoin PtokensCore.Base58

/-- `DEFAULT_BTC_SEQUENCE`; `btc_constants.rs` is not among the sources, and the expected
serializations in the tests of `btc_utils.rs` end in the sequence `ffffffff`. -/
def defaultBtcSequence : UInt32 := 0xffffffff

/-- `PTOKEN_P2SH_SCRIPT_BYTES`; not among the sources, and `should_calculate_btc_tx_size`
expects 193 bytes for one input and one output, which the size formula gives only for 0. -/
def ptokenP2shScriptBytes : UInt64 := 0

/-! ## Scripts -/

def getP2shRedeemScriptSig {ε : Type} (utxoSpenderPubKeySlice : List UInt8)
    (ethAddressAndNonceHash : FixedBytes 32) : Except (Fault ε) Script := do
  let builder ← Builder.new.pushSlice ethAddressAndNonceHash.bytes
  let builder ← (builder.pushOpcode opDrop).pushSlice utxoSpenderPubKeySlice
  pure (builder.pushOpcode opChecksig).intoScript

/-- The shape both unlocking-script builders share: a signature push, then one more push. -/
def signatureAndPushScript {ε : Type} (signatureSlice other : List UInt8) : Except (Fault ε) Script := do
  let builder ← Builder.new.pushSlice signatureSlice
  let builder ← builder.pushSlice other
  pure builder.intoScript

def getP2shScriptSigFromRedeemScript {ε : Type} (signatureSlice : List UInt8) (redeemScript : Script) :
    Except (Fault ε) Script :=
  signatureAndPushScript signatureSlice redeemScript.bytes

def getScriptSig {ε : Type} (signatureSlice utxoSpenderPubKeySlice : List UInt8) : Except (Fault ε) Script :=
  signatureAndPushScript signatureSlice utxoSpenderPubKeySlice

section Builders

variable {ε : Type}

theorem getP2shRedeemScriptSig_of_lt (utxoSpenderPubKeySlice : List UInt8) (ethAddressAndNonceHash : FixedBytes 32)
    (fits : utxoSpenderPubKeySlice.length < 2 ^ 32) :
    getP2shRedeemScriptSig (ε := ε) utxoSpenderPubKeySlice ethAddressAndNonceHash =
      .ok ⟨encodeAll [.pushBytes ethAddressAndNonceHash.bytes, .op opDrop, .pushBytes utxoSpenderPubKeySlice,
        .op opChecksig]⟩ := by
  have hash : ethAddressAndNonceHash.bytes.length < 2 ^ 32 := by rw [ethAddressAndNonceHash.length_eq]; decide
  simp [getP2shRedeemScriptSig, pushSlice_of_lt _ hash, pushSlice_of_lt _ fits, Builder.new, Builder.pushOpcode,
    Builder.intoScript, encodeAll, Instruction.encode, bind, Except.bind, pure, Except.pure]

theorem signatureAndPushScript_of_lt (signatureSlice other : List UInt8)
    (fits : signatureSlice.length < 2 ^ 32) (fitsOther : other.length < 2 ^ 32) :
    signatureAndPushScript (ε := ε) signatureSlice other =
      .ok ⟨encodeAll [.pushBytes signatureSlice, .pushBytes other]⟩ := by
  simp [signatureAndPushScript, pushSlice_of_lt _ fits, pushSlice_of_lt _ fitsOther, Builder.new,
    Builder.intoScript, encodeAll, Instruction.encode, bind, Except.bind, pure, Except.pure]

theorem signatureAndPushScript_ok {signatureSlice other : List UInt8} {script : Script}
    (built : signatureAndPushScript (ε := ε) signatureSlice other = .ok script) :
    signatureSlice.length < 2 ^ 32 ∧ other.length < 2 ^ 32 ∧
      script = ⟨encodeAll [.pushBytes signatureSlice, .pushBytes other]⟩ := by
  by_cases fits : signatureSlice.length < 2 ^ 32
  · by_cases fitsOther : other.length < 2 ^ 32
    · rw [signatureAndPushScript_of_lt _ _ fits fitsOther] at built
      exact ⟨fits, fitsOther, (Except.ok.inj built).symm⟩
    · simp [signatureAndPushScript, pushSlice_of_lt _ fits, pushSlice_of_le _ (Nat.le_of_not_lt fitsOther),
        bind, Except.bind] at built
  · simp [signatureAndPushScript, pushSlice_of_le _ (Nat.le_of_not_lt fits), bind, Except.bind] at built

theorem getP2shRedeemScriptSig_of_le (utxoSpenderPubKeySlice : List UInt8) (ethAddressAndNonceHash : FixedBytes 32)
    (large : 2 ^ 32 ≤ utxoSpenderPubKeySlice.length) :
    getP2shRedeemScriptSig (ε := ε) utxoSpenderPubKeySlice ethAddressAndNonceHash =
      .error (.panic "tried to put a 4bn+ sized object into a script!") := by
  have hash : ethAddressAndNonceHash.bytes.length < 2 ^ 32 := by rw [ethAddressAndNonceHash.length_eq]; decide
  simp [getP2shRedeemScriptSig, pushSlice_of_lt _ hash, pushSlice_of_le _ large, bind, Except.bind]

theorem getP2shRedeemScriptSig_ok {utxoSpenderPubKeySlice : List UInt8} {ethAddressAndNonceHash : FixedBytes 32}
    {script : Script} (built : getP2shRedeemScriptSig (ε := ε) utxoSpenderPubKeySlice ethAddressAndNonceHash = .ok script) :
    utxoSpenderPubKeySlice.length < 2 ^ 32 ∧
      script = ⟨encodeAll [.pushBytes ethAddressAndNonceHash.bytes, .op opDrop, .pushBytes utxoSpenderPubKeySlice,
        .op opChecksig]⟩ := by
  by_cases fits : utxoSpenderPubKeySlice.length < 2 ^ 32
  · rw [getP2shRedeemScriptSig_of_lt _ _ fits] at built
    exact ⟨fits, (Except.ok.inj built).symm⟩
  · rw [getP2shRedeemScriptSig_of_le _ _ (by omega)] at built
    cases built

theorem length_getP2shRedeemScriptSig {utxoSpenderPubKeySlice : List UInt8} {ethAddressAndNonceHash : FixedBytes 32}
    {redeemScript : Script}
    (built : getP2shRedeemScriptSig (ε := ε) utxoSpenderPubKeySlice ethAddressAndNonceHash = .ok redeemScript) :
    redeemScript.bytes.length = (pushPrefix utxoSpenderPubKeySlice.length).length + utxoSpenderPubKeySlice.length + 35 := by
  obtain ⟨-, rfl⟩ := getP2shRedeemScriptSig_ok built
  have hashPrefix : (pushPrefix 32).length = 1 := rfl
  simp [encodeAll, Instruction.encode, ethAddressAndNonceHash.length_eq, hashPrefix]
  omega

theorem length_getP2shRedeemScriptSig_le {utxoSpenderPubKeySlice : List UInt8} {ethAddressAndNonceHash : FixedBytes 32}
    {redeemScript : Script}
    (built : getP2shRedeemScriptSig (ε := ε) utxoSpenderPubKeySlice ethAddressAndNonceHash = .ok redeemScript) :
    redeemScript.bytes.length ≤ utxoSpenderPubKeySlice.length + 40 := by
  have := length_pushPrefix_le utxoSpenderPubKeySlice.length
  rw [length_getP2shRedeemScriptSig built]
  omega

theorem length_signatureAndPushScript {signatureSlice other : List UInt8} {script : Script}
    (built : signatureAndPushScript (ε := ε) signatureSlice other = .ok script) :
    script.bytes.length = (pushPrefix signatureSlice.length).length + signatureSlice.length +
      (pushPrefix other.length).length + other.length := by
  obtain ⟨-, -, rfl⟩ := signatureAndPushScript_ok built
  simp [encodeAll, Instruction.encode]
  omega

theorem redeem_encodable (utxoSpenderPubKeySlice : List UInt8) (ethAddressAndNonceHash : FixedBytes 32)
    (fits : utxoSpenderPubKeySlice.length < 2 ^ 32) :
    ∀ instruction ∈ [Instruction.pushBytes ethAddressAndNonceHash.bytes, .op opDrop,
      .pushBytes utxoSpenderPubKeySlice, .op opChecksig], instruction.Encodable := by
  simp only [List.mem_cons, List.mem_singleton, List.not_mem_nil, or_false]
  rintro _ (rfl | rfl | rfl | rfl)
  · show ethAddressAndNonceHash.bytes.length < 2 ^ 32
    rw [ethAddressAndNonceHash.length_eq]
    decide
  · decide
  · exact fits
  · decide

theorem two_pushes_encodable {signatureSlice other : List UInt8} (fits : signatureSlice.length < 2 ^ 32)
    (fitsOther : other.length < 2 ^ 32) :
    ∀ instruction ∈ [Instruction.pushBytes signatureSlice, .pushBytes other], instruction.Encodable := by
  simp only [List.mem_cons, List.mem_singleton, List.not_mem_nil, or_false]
  rintro _ (rfl | rfl)
  · exact fits
  · exact fitsOther

end Builders

/-- Below the 2^32-byte limit of a push, each builder's script reads back as the pushes it was
built from, and no two argument tuples give the same script. -/
theorem script_builders_read_back {ε : Type} :
    (∀ (pk : List UInt8) (hash : FixedBytes 32), pk.length < 2 ^ 32 →
      ∃ script, getP2shRedeemScriptSig (ε := ε) pk hash = .ok script ∧
        script.instructions = .ok [.pushBytes hash.bytes, .op opDrop, .pushBytes pk, .op opChecksig]) ∧
    (∀ (signature : List UInt8) (redeemScript : Script), signature.length < 2 ^ 32 →
      redeemScript.bytes.length < 2 ^ 32 →
      ∃ script, getP2shScriptSigFromRedeemScript (ε := ε) signature redeemScript = .ok script ∧
        script.instructions = .ok [.pushBytes signature, .pushBytes redeemScript.bytes]) ∧
    (∀ signature pk : List UInt8, signature.length < 2 ^ 32 → pk.length < 2 ^ 32 →
      ∃ script, getScriptSig (ε := ε) signature pk = .ok script ∧
        script.instructions = .ok [.pushBytes signature, .pushBytes pk]) ∧
    (∀ (pk pk' : List UInt8) (hash hash' : FixedBytes 32) (script : Script),
      getP2shRedeemScriptSig (ε := ε) pk hash = .ok script →
      getP2shRedeemScriptSig (ε := ε) pk' hash' = .ok script → pk = pk' ∧ hash = hash') ∧
    (∀ (signature signature' : List UInt8) (redeemScript redeemScript' script : Script),
      getP2shScriptSigFromRedeemScript (ε := ε) signature redeemScript = .ok script →
      getP2shScriptSigFromRedeemScript (ε := ε) signature' redeemScript' = .ok script →
      signature = signature' ∧ redeemScript = redeemScript') ∧
    (∀ (signature signature' pk pk' : List UInt8) (script : Script),
      getScriptSig (ε := ε) signature pk = .ok script → getScriptSig (ε := ε) signature' pk' = .ok script →
      signature = signature' ∧ pk = pk') := by
  refine ⟨fun pk hash fits => ⟨_, getP2shRedeemScriptSig_of_lt pk hash fits,
      instructions_encodeAll _ (redeem_encodable pk hash fits)⟩,
    fun signature redeemScript fits fitsRedeem => ⟨_, signatureAndPushScript_of_lt _ _ fits fitsRedeem,
      instructions_encodeAll _ (two_pushes_encodable fits fitsRedeem)⟩,
    fun signature pk fits fitsKey => ⟨_, signatureAndPushScript_of_lt _ _ fits fitsKey,
      instructions_encodeAll _ (two_pushes_encodable fits fitsKey)⟩, ?_, ?_, ?_⟩
  · intro pk pk' hash hash' script built built'
    obtain ⟨fits, rfl⟩ := getP2shRedeemScriptSig_ok built
    obtain ⟨fits', same⟩ := getP2shRedeemScriptSig_ok built'
    have := encodeAll_injective (redeem_encodable pk hash fits) (redeem_encodable pk' hash' fits')
      (congrArg Script.bytes same)
    simp only [List.cons.injEq, Instruction.pushBytes.injEq, and_true, true_and] at this
    exact ⟨this.2, FixedBytes.bytes_injective this.1⟩
  · intro signature signature' redeemScript redeemScript' script built built'
    obtain ⟨fits, fitsRedeem, rfl⟩ := signatureAndPushScript_ok built
    obtain ⟨fits', fitsRedeem', same⟩ := signatureAndPushScript_ok built'
    have := encodeAll_injective (two_pushes_encodable fits fitsRedeem) (two_pushes_encodable fits' fitsRedeem')
      (congrArg Script.bytes same)
    simp only [List.cons.injEq, Instruction.pushBytes.injEq, and_true] at this
    exact ⟨this.1, by cases redeemScript; cases redeemScript'; simp_all⟩
  · intro signature signature' pk pk' script built built'
    obtain ⟨fits, fitsKey, rfl⟩ := signatureAndPushScript_ok built
    obtain ⟨fits', fitsKey', same⟩ := signatureAndPushScript_ok built'
    have := encodeAll_injective (two_pushes_encodable fits fitsKey) (two_pushes_encodable fits' fitsKey')
      (congrArg Script.bytes same)
    simp only [List.cons.injEq, Instruction.pushBytes.injEq, and_true] at this
    exact this

theorem get_p2sh_redeem_script_sig_panics_on_4gib_key :
    getP2shRedeemScriptSig (ε := AppError) (List.replicate (2 ^ 32) 0) ⟨List.replicate 32 0, rfl⟩ =
      .error (.panic "tried to put a 4bn+ sized object into a script!") :=
  getP2shRedeemScriptSig_of_le _ _ (by rw [List.length_replicate])

/-! ## Transactions -/

def createNewTxOutput (value : UInt64) (script : Script) : Result TxOut := .ok ⟨value, script⟩

def createUnsignedUtxoFromTx {ε : Type} (hashes : Hashes) (tx : Transaction) (outputIndex : UInt32) :
    Except (Fault ε) TxIn :=
  match tx.output[outputIndex.toNat]? with
  | none => throw (.panic (indexOutOfBounds tx.output.length outputIndex.toNat))
  | some output => pure
    { witness := []
      previousOutput := ⟨tx.txid hashes, outputIndex⟩
      sequence := defaultBtcSequence
      scriptSig := output.scriptPubkey }

def serializeBtcUtxo (btcUtxo : TxIn) : List UInt8 := btcUtxo.encode

def deserializeBtcUtxo (bytes : List UInt8) : Result TxIn :=
  (deserialize decodeTxIn bytes).mapError (.error ∘ .bitcoinEncode)

/-- `BtcUtxoAndValue::new`: the input is stored serialized, with no pointer yet. -/
def BtcUtxoAndValue.new (value : UInt64) (utxo : TxIn) (maybeDepositInfoJson : Option DepositAddressInfoJson)
    (maybeExtraData : Option (List UInt8)) : BtcUtxoAndValue :=
  ⟨value, serializeBtcUtxo utxo, maybeDepositInfoJson, maybeExtraData, none⟩

theorem createUnsignedUtxoFromTx_of_lt {ε : Type} (hashes : Hashes) (tx : Transaction) {outputIndex : UInt32}
    (present : outputIndex.toNat < tx.output.length) :
    createUnsignedUtxoFromTx (ε := ε) hashes tx outputIndex =
      .ok ⟨⟨tx.txid hashes, outputIndex⟩, (tx.output.get ⟨outputIndex.toNat, present⟩).scriptPubkey,
        defaultBtcSequence, []⟩ := by
  simp [createUnsignedUtxoFromTx, List.getElem?_eq_getElem present, pure, Except.pure]

theorem deserializeBtcUtxo_serializeBtcUtxo {btcUtxo : TxIn} (noWitness : btcUtxo.witness = [])
    (small : btcUtxo.scriptSig.bytes.length ≤ maxVecSize) :
    deserializeBtcUtxo (serializeBtcUtxo btcUtxo) = .ok btcUtxo := by
  simp [deserializeBtcUtxo, serializeBtcUtxo, deserialize_of_decode (decodeTxIn_encode noWitness small []),
    Except.mapError]

theorem deserializeBtcUtxo_oversized {btcUtxo : TxIn} (large : maxVecSize < btcUtxo.scriptSig.bytes.length)
    (fits : btcUtxo.scriptSig.bytes.length < 2 ^ 64) :
    deserializeBtcUtxo (serializeBtcUtxo btcUtxo) =
      .error (.error (.bitcoinEncode (.oversizedVectorAllocation btcUtxo.scriptSig.bytes.length maxVecSize))) := by
  simp [deserializeBtcUtxo, serializeBtcUtxo, deserialize, decodeTxIn, TxIn.encode, List.append_assoc,
    decodeOutPoint_encode, decodeBytes_oversized large fits, bind, Except.bind, Except.mapError]

/-- An input without a witness reads back whole when its script is within `MAX_VEC_SIZE`; a
longer one is refused with an `Err`. -/
theorem deserialize_btc_utxo_round_trip :
    (∀ btcUtxo : TxIn, btcUtxo.witness = [] → btcUtxo.scriptSig.bytes.length ≤ maxVecSize →
      deserializeBtcUtxo (serializeBtcUtxo btcUtxo) = .ok btcUtxo) ∧
    (∀ btcUtxo : TxIn, maxVecSize < btcUtxo.scriptSig.bytes.length → btcUtxo.scriptSig.bytes.length < 2 ^ 64 →
      deserializeBtcUtxo (serializeBtcUtxo btcUtxo) =
        .error (.error (.bitcoinEncode (.oversizedVectorAllocation btcUtxo.scriptSig.bytes.length maxVecSize)))) ∧
    (∀ (hashes : Hashes) (tx : Transaction) (outputIndex : UInt32) (present : outputIndex.toNat < tx.output.length),
      ∃ btcUtxo, createUnsignedUtxoFromTx (ε := AppError) hashes tx outputIndex = .ok btcUtxo ∧
        btcUtxo.witness = [] ∧ btcUtxo.previousOutput = ⟨tx.txid hashes, outputIndex⟩ ∧
        btcUtxo.sequence = defaultBtcSequence ∧
        btcUtxo.scriptSig = (tx.output.get ⟨outputIndex.toNat, present⟩).scriptPubkey ∧
        (btcUtxo.scriptSig.bytes.length ≤ maxVecSize →
          deserializeBtcUtxo (serializeBtcUtxo btcUtxo) = .ok btcUtxo)) := by
  exact ⟨fun btcUtxo noWitness small => deserializeBtcUtxo_serializeBtcUtxo noWitness small,
    fun btcUtxo large fits => deserializeBtcUtxo_oversized large fits,
    fun hashes tx outputIndex present => ⟨_, createUnsignedUtxoFromTx_of_lt hashes tx present, rfl, rfl, rfl, rfl,
      deserializeBtcUtxo_serializeBtcUtxo rfl⟩⟩

theorem deserialize_btc_utxo_refuses_long_script_sig :
    let btcUtxo : TxIn := ⟨⟨⟨List.replicate 32 0, rfl⟩, 0⟩, ⟨List.replicate 33554433 0⟩, defaultBtcSequence, []⟩
    deserializeBtcUtxo (serializeBtcUtxo btcUtxo) ≠ .ok btcUtxo := by
  intro btcUtxo
  have length : btcUtxo.scriptSig.bytes.length = 33554433 := List.length_replicate _ _
  rw [deserializeBtcUtxo_oversized (by rw [length]; decide) (by rw [length]; decide)]
  exact Except.noConfusion

/-- `deserialize_btc_utxo` accepts only the serialization of what it returns. -/
theorem deserialize_btc_utxo_accepts_only_serializations (bytes : List UInt8) (btcUtxo : TxIn) :
    deserializeBtcUtxo bytes = .ok btcUtxo ↔
      bytes = serializeBtcUtxo btcUtxo ∧ btcUtxo.witness = [] ∧ btcUtxo.scriptSig.bytes.length ≤ maxVecSize := by
  rw [serializeBtcUtxo, ← deserialize_decodeTxIn_iff, deserializeBtcUtxo]
  cases deserialize decodeTxIn bytes <;> simp [Except.mapError]

/-- `get_tx_id_from_signed_btc_tx`: the txid's bytes, last first, in hex. -/
def getTxIdFromSignedBtcTx (hashes : Hashes) (signedBtcTx : Transaction) : String :=
  asciiString (SerdeJson.hexEncode (signedBtcTx.txid hashes).bytes.reverse)

def getHexTxFromSignedBtcTx (signedBtcTx : Transaction) : String :=
  asciiString (SerdeJson.hexEncode signedBtcTx.encode)

theorem utf8Bytes_hexEncode (bytes : List UInt8) :
    utf8Bytes (asciiString (SerdeJson.hexEncode bytes)) = SerdeJson.hexEncode bytes :=
  utf8Bytes_asciiString (SerdeJson.hexEncode_ascii bytes)

theorem Transaction.encode_of_legacy {tx : Transaction} (legacy : tx.hasWitness = false) :
    tx.encode = tx.encodeWithoutWitness := by
  simp [Transaction.encode, Transaction.encodeWithoutWitness, legacy]

/-- The hex of a signed transaction reads back as it, and without witnesses the id text is the
`sha256d` of exactly those bytes. -/
theorem signed_btc_tx_text_reads_back (sizes : ElementSizes) (hashes : Hashes) (signedBtcTx : Transaction)
    (limits : Transaction.WithinLimits sizes signedBtcTx) :
    ∃ bytes, SerdeJson.hexDecode (utf8Bytes (getHexTxFromSignedBtcTx signedBtcTx)) = .ok bytes ∧
      deserialize (decodeTransaction sizes) bytes = .ok signedBtcTx ∧
      SerdeJson.hexDecode (utf8Bytes (getTxIdFromSignedBtcTx hashes signedBtcTx)) =
        .ok (signedBtcTx.txid hashes).bytes.reverse ∧
      (signedBtcTx.hasWitness = false → signedBtcTx.txid hashes = hashes.sha256d bytes) := by
  refine ⟨_, by rw [getHexTxFromSignedBtcTx, utf8Bytes_hexEncode, SerdeJson.hexDecode_hexEncode],
    deserialize_of_decode (decodeTransaction_encode limits []),
    by rw [getTxIdFromSignedBtcTx, utf8Bytes_hexEncode, SerdeJson.hexDecode_hexEncode], fun legacy => ?_⟩
  rw [Transaction.encode_of_legacy legacy]
  rfl

theorem signed_btc_tx_text_reads_back_one_input :
    let hashes : Hashes := ⟨fun _ => ⟨List.replicate 32 0, rfl⟩, fun _ => ⟨List.replicate 20 0, rfl⟩⟩
    let signedBtcTx : Transaction := ⟨1, 0, [⟨⟨⟨List.replicate 32 0, rfl⟩, 0⟩, ⟨[]⟩, defaultBtcSequence, []⟩], []⟩
    Transaction.WithinLimits targetSizes signedBtcTx ∧
      ∃ bytes, SerdeJson.hexDecode (utf8Bytes (getHexTxFromSignedBtcTx signedBtcTx)) = .ok bytes ∧
        deserialize (decodeTransaction targetSizes) bytes = .ok signedBtcTx ∧
        SerdeJson.hexDecode (utf8Bytes (getTxIdFromSignedBtcTx hashes signedBtcTx)) =
          .ok (signedBtcTx.txid hashes).bytes.reverse ∧
        (signedBtcTx.hasWitness = false → signedBtcTx.txid hashes = hashes.sha256d bytes) := by
  intro hashes signedBtcTx
  have limits : Transaction.WithinLimits targetSizes signedBtcTx := by decide
  exact ⟨limits, signed_btc_tx_text_reads_back targetSizes hashes signedBtcTx limits⟩

/-- `convert_deposit_info_to_json`: the two hashes in hex without `0x`, in the order their bytes
are stored, and the deposit address as its text. -/
def convertDepositInfoToJson (hashes : Hashes) (bech32 : Nat → List UInt8 → Network → String)
    (depositInfoStruct : DepositAddressInfo) : DepositAddressInfoJson where
  nonce := depositInfoStruct.nonce
  btcDepositAddress := depositInfoStruct.btcDepositAddress.toString hashes bech32
  ethAddress := asciiString (SerdeJson.hexEncode depositInfoStruct.ethAddress.bytes)
  ethAddressAndNonceHash := asciiString (SerdeJson.hexEncode depositInfoStruct.ethAddressAndNonceHash.bytes)

theorem hexText_inj {bytes bytes' : List UInt8} :
    asciiString (SerdeJson.hexEncode bytes) = asciiString (SerdeJson.hexEncode bytes') ↔ bytes = bytes' := by
  refine ⟨fun same => ?_, fun same => same ▸ rfl⟩
  have decoded := congrArg (SerdeJson.hexDecode ∘ utf8Bytes) same
  simpa [utf8Bytes_hexEncode, SerdeJson.hexDecode_hexEncode] using decoded

/-- The JSON form of an entry with a base-58 address loses only testnet against regtest. -/
theorem convert_deposit_info_to_json_injective_up_to_test_networks (hashes : Hashes)
    (bech32 : Nat → List UInt8 → Network → String) {depositInfo depositInfo' : DepositAddressInfo}
    (base58 : depositInfo.btcDepositAddress.payload.isHash) (base58' : depositInfo'.btcDepositAddress.payload.isHash) :
    convertDepositInfoToJson hashes bech32 depositInfo = convertDepositInfoToJson hashes bech32 depositInfo' ↔
      depositInfo.nonce = depositInfo'.nonce ∧ depositInfo.btcDepositAddress.payload = depositInfo'.btcDepositAddress.payload ∧
        (depositInfo.btcDepositAddress.network = .bitcoin ↔ depositInfo'.btcDepositAddress.network = .bitcoin) ∧
        depositInfo.ethAddress = depositInfo'.ethAddress ∧
        depositInfo.ethAddressAndNonceHash = depositInfo'.ethAddressAndNonceHash := by
  simp only [convertDepositInfoToJson, DepositAddressInfoJson.mk.injEq, hexText_inj,
    Address.toString_inj hashes bech32 base58 base58', FixedBytes.bytes_injective.eq_iff, and_assoc]

theorem convert_deposit_info_to_json_injective_up_to_test_networks_on_script_hashes :
    let hashes : Hashes := ⟨fun _ => ⟨List.replicate 32 0, rfl⟩, fun _ => ⟨List.replicate 20 0, rfl⟩⟩
    let bech32 : Nat → List UInt8 → Network → String := fun _ _ _ => ""
    let depositInfo : DepositAddressInfo :=
      ⟨0, ⟨List.replicate 20 1, rfl⟩, ⟨.scriptHash ⟨List.replicate 20 2, rfl⟩, .testnet⟩, ⟨List.replicate 32 3, rfl⟩⟩
    let depositInfo' : DepositAddressInfo := { depositInfo with btcDepositAddress := ⟨.scriptHash ⟨List.replicate 20 2, rfl⟩, .regtest⟩ }
    depositInfo.btcDepositAddress.payload.isHash ∧ depositInfo'.btcDepositAddress.payload.isHash ∧
      (convertDepositInfoToJson hashes bech32 depositInfo = convertDepositInfoToJson hashes bech32 depositInfo' ↔
        depositInfo.nonce = depositInfo'.nonce ∧
          depositInfo.btcDepositAddress.payload = depositInfo'.btcDepositAddress.payload ∧
          (depositInfo.btcDepositAddress.network = .bitcoin ↔ depositInfo'.btcDepositAddress.network = .bitcoin) ∧
          depositInfo.ethAddress = depositInfo'.ethAddress ∧
          depositInfo.ethAddressAndNonceHash = depositInfo'.ethAddressAndNonceHash) :=
  ⟨rfl, rfl, convert_deposit_info_to_json_injective_up_to_test_networks _ _ rfl rfl⟩

/-! ## Values, fees and sizes -/

/-- The unchecked `Iterator::sum` of the values. -/
def getTotalValueOfUtxosAndValues (utxosAndValues : BtcUtxosAndValues) : UInt64 :=
  (utxosAndValues.map (·.value)).foldl (· + ·) 0

def calculateBtcTxSize (numInputs numOutputs : UInt64) : UInt64 :=
  numInputs * (148 + ptokenP2shScriptBytes) + numOutputs * 34 + 10 + numInputs

def calculateBtcTxFee (numInputs numOutputs satsPerByte : UInt64) : UInt64 :=
  calculateBtcTxSize numInputs numOutputs * satsPerByte

theorem foldl_add_toNat (values : List UInt64) (start : UInt64) :
    (values.foldl (· + ·) start).toNat = (start.toNat + (values.map UInt64.toNat).sum) % 2 ^ 64 := by
  induction values generalizing start with
  | nil => simp [Nat.mod_eq_of_lt start.toNat_lt]
  | cons value rest ih =>
    simp only [List.foldl_cons, ih, UInt64.toNat_add, List.map_cons, List.sum_cons, UInt64.size, Nat.reducePow]
    rw [Nat.mod_add_mod, Nat.add_assoc]

/-- The total is the sum of the values modulo 2^64. -/
theorem get_total_value_of_utxos_and_values_wraps (utxosAndValues : BtcUtxosAndValues) :
    (getTotalValueOfUtxosAndValues utxosAndValues).toNat = (utxosAndValues.map (·.value.toNat)).sum % 2 ^ 64 ∧
      ((getTotalValueOfUtxosAndValues utxosAndValues).toNat = (utxosAndValues.map (·.value.toNat)).sum ↔
        (utxosAndValues.map (·.value.toNat)).sum < 2 ^ 64) := by
  have total : (getTotalValueOfUtxosAndValues utxosAndValues).toNat =
      (utxosAndValues.map (·.value.toNat)).sum % 2 ^ 64 := by
    simp [getTotalValueOfUtxosAndValues, foldl_add_toNat, Function.comp_def]
  refine ⟨total, total ▸ ⟨fun same => same ▸ Nat.mod_lt _ (by decide), Nat.mod_eq_of_lt⟩⟩

theorem get_total_value_of_utxos_and_values_wraps_at_two_pow_64 :
    let utxosAndValues : BtcUtxosAndValues :=
      [⟨9223372036854775808, [], none, none, none⟩, ⟨9223372036854775808, [], none, none, none⟩]
    (getTotalValueOfUtxosAndValues utxosAndValues).toNat ≠ (utxosAndValues.map (·.value.toNat)).sum := by
  decide

/-- The fee the size formula gives over the natural numbers. -/
def exactBtcTxFee (numInputs numOutputs satsPerByte : Nat) : Nat :=
  (numInputs * (148 + ptokenP2shScriptBytes.toNat) + 34 * numOutputs + 10 + numInputs) * satsPerByte

theorem calculateBtcTxFee_toNat (numInputs numOutputs satsPerByte : UInt64) :
    (calculateBtcTxFee numInputs numOutputs satsPerByte).toNat =
      exactBtcTxFee numInputs.toNat numOutputs.toNat satsPerByte.toNat % 2 ^ 64 := by
  unfold exactBtcTxFee
  simp only [calculateBtcTxFee, calculateBtcTxSize, UInt64.toNat_mul, UInt64.toNat_add, UInt64.size,
    Nat.mod_add_mod, Nat.add_mod_mod, Nat.mod_mul_mod, Nat.mul_mod_mod, UInt64.toNat_ofNat]
  ring_nf

/-- The fee is the exact fee modulo 2^64. -/
theorem calculate_btc_tx_fee_wraps (numInputs numOutputs satsPerByte : UInt64) :
    (calculateBtcTxFee numInputs numOutputs satsPerByte).toNat =
        exactBtcTxFee numInputs.toNat numOutputs.toNat satsPerByte.toNat % 2 ^ 64 ∧
      ((calculateBtcTxFee numInputs numOutputs satsPerByte).toNat =
          exactBtcTxFee numInputs.toNat numOutputs.toNat satsPerByte.toNat ↔
        exactBtcTxFee numInputs.toNat numOutputs.toNat satsPerByte.toNat < 2 ^ 64) := by
  rw [calculateBtcTxFee_toNat]
  exact ⟨rfl, fun same => same ▸ Nat.mod_lt _ (by decide), Nat.mod_eq_of_lt⟩

theorem calculate_btc_tx_fee_wraps_at_max_rate :
    (calculateBtcTxFee 1 1 18446744073709551615).toNat ≠ exactBtcTxFee 1 1 18446744073709551615 := by
  decide

-- `calculate_btc_tx_size` counts an input as a pay-to-pubkey-hash spend: 148 bytes, one more
-- for each input, and 34 bytes an output, over 10 bytes of version, counts and lock time.

theorem calculateBtcTxSize_toNat_le (numInputs numOutputs : UInt64) :
    (calculateBtcTxSize numInputs numOutputs).toNat ≤ 149 * numInputs.toNat + 34 * numOutputs.toNat + 10 := by
  simp only [calculateBtcTxSize, ptokenP2shScriptBytes, UInt64.toNat_add, UInt64.toNat_mul, UInt64.size]
  simp
  omega

theorem calculateBtcTxSize_toNat_of_lt {numInputs numOutputs : Nat} (fewInputs : numInputs < 2 ^ 32)
    (fewOutputs : numOutputs < 2 ^ 32) :
    (calculateBtcTxSize (UInt64.ofNat numInputs) (UInt64.ofNat numOutputs)).toNat = 149 * numInputs + 34 * numOutputs + 10 := by
  simp only [calculateBtcTxSize, ptokenP2shScriptBytes, UInt64.toNat_add, UInt64.toNat_mul, UInt64.size,
    UInt64.toNat_ofNat']
  simp
  omega

theorem sum_map_length_encodeBytes {α : Type} (items : List α) (script : α → List UInt8) (fixed : Nat)
    (short : ∀ item ∈ items, (script item).length < 253) :
    (items.map fun item => fixed + (encodeBytes (script item)).length).sum =
      (fixed + 1) * items.length + (items.map fun item => (script item).length).sum := by
  induction items with
  | nil => rfl
  | cons item others ih =>
    have tail := ih fun other mem => short other (List.mem_cons_of_mem _ mem)
    rw [List.map_cons, List.sum_cons, tail, List.map_cons, List.sum_cons, encodeBytes, List.length_append,
      length_encodeVarInt_of_lt (short item (List.mem_cons_self _ _)), List.length_cons]
    ring

/-- The formula is the serialized size exactly when the unlocking scripts have 108 bytes and
the output scripts 25. -/
theorem calculate_btc_tx_size_counts_108_byte_script_sigs (tx : Transaction) (legacy : tx.hasWitness = false)
    (fewInputs : tx.input.length < 253) (fewOutputs : tx.output.length < 253)
    (shortScriptSigs : ∀ input ∈ tx.input, input.scriptSig.bytes.length < 253)
    (shortScriptPubkeys : ∀ output ∈ tx.output, output.scriptPubkey.bytes.length < 253) :
    tx.encode.length + 108 * tx.input.length + 25 * tx.output.length =
      (calculateBtcTxSize (UInt64.ofNat tx.input.length) (UInt64.ofNat tx.output.length)).toNat +
        (tx.input.map (·.scriptSig.bytes.length)).sum + (tx.output.map (·.scriptPubkey.bytes.length)).sum := by
  rw [length_encode_of_legacy legacy, length_encodeVarInt_of_lt fewInputs, length_encodeVarInt_of_lt fewOutputs,
    sum_map_length_encodeBytes _ _ _ shortScriptSigs, sum_map_length_encodeBytes _ _ _ shortScriptPubkeys,
    calculateBtcTxSize_toNat_of_lt (by omega) (by omega)]
  ring

theorem calculate_btc_tx_size_counts_108_byte_script_sigs_for_p2pkh_spend :
    let tx : Transaction := ⟨1, 0, [⟨⟨⟨List.replicate 32 0, rfl⟩, 0⟩, ⟨List.replicate 107 0⟩, defaultBtcSequence, []⟩],
      [⟨0, ⟨List.replicate 25 0⟩⟩]⟩
    tx.hasWitness = false ∧ tx.input.length < 253 ∧ tx.output.length < 253 ∧
      (∀ input ∈ tx.input, input.scriptSig.bytes.length < 253) ∧
      (∀ output ∈ tx.output, output.scriptPubkey.bytes.length < 253) ∧
      tx.encode.length + 108 * tx.input.length + 25 * tx.output.length =
        (calculateBtcTxSize (UInt64.ofNat tx.input.length) (UInt64.ofNat tx.output.length)).toNat +
          (tx.input.map (·.scriptSig.bytes.length)).sum + (tx.output.map (·.scriptPubkey.bytes.length)).sum := by
  intro tx
  have legacy : tx.hasWitness = false := by decide
  have short : ∀ input ∈ tx.input, input.scriptSig.bytes.length < 253 := by decide
  have shortPubkeys : ∀ output ∈ tx.output, output.scriptPubkey.bytes.length < 253 := by decide
  exact ⟨legacy, by decide, by decide, short, shortPubkeys,
    calculate_btc_tx_size_counts_108_byte_script_sigs tx legacy (by decide) (by decide) short shortPubkeys⟩

/-- With `PTOKEN_P2SH_SCRIPT_BYTES` at 0, a spend of the enclave's deposits is at least 34 bytes
an input longer than the size the fee is charged for. -/
theorem calculate_btc_tx_size_undercounts_p2sh_deposit_spends (tx : Transaction) (enclavePublicKeySlice : List UInt8)
    (keyLength : 33 ≤ enclavePublicKeySlice.length) (legacy : tx.hasWitness = false)
    (payToPubKeyHash : ∀ output ∈ tx.output, 25 ≤ output.scriptPubkey.bytes.length)
    (spendsDeposits : ∀ input ∈ tx.input, ∃ ethAddressAndNonceHash redeemScript signatureSlice,
      71 ≤ signatureSlice.length ∧
      getP2shRedeemScriptSig (ε := AppError) enclavePublicKeySlice ethAddressAndNonceHash = .ok redeemScript ∧
      getP2shScriptSigFromRedeemScript (ε := AppError) signatureSlice redeemScript = .ok input.scriptSig) :
    (calculateBtcTxSize (UInt64.ofNat tx.input.length) (UInt64.ofNat tx.output.length)).toNat + 34 * tx.input.length ≤
      tx.encode.length := by
  have inputBytes : ∀ input ∈ tx.input, 183 ≤ 40 + (encodeBytes input.scriptSig.bytes).length := by
    intro input mem
    obtain ⟨_, redeemScript, signatureSlice, long, redeem, built⟩ := spendsDeposits input mem
    have redeemLong : 69 ≤ redeemScript.bytes.length := by
      have := List.length_pos.2 (pushPrefix_ne_nil enclavePublicKeySlice.length)
      rw [length_getP2shRedeemScriptSig redeem]
      omega
    have scriptLong : 142 ≤ input.scriptSig.bytes.length := by
      have := List.length_pos.2 (pushPrefix_ne_nil signatureSlice.length)
      have := List.length_pos.2 (pushPrefix_ne_nil redeemScript.bytes.length)
      rw [length_signatureAndPushScript built]
      omega
    have := one_le_length_encodeVarInt input.scriptSig.bytes.length
    simp only [encodeBytes, List.length_append]
    omega
  have outputBytes : ∀ output ∈ tx.output, 34 ≤ 8 + (encodeBytes output.scriptPubkey.bytes).length := by
    intro output mem
    have := one_le_length_encodeVarInt output.scriptPubkey.bytes.length
    have := payToPubKeyHash output mem
    simp only [encodeBytes, List.length_append]
    omega
  have estimate := calculateBtcTxSize_toNat_le (UInt64.ofNat tx.input.length) (UInt64.ofNat tx.output.length)
  have inputs := List.card_nsmul_le_sum _ _ (List.forall_mem_map.2 inputBytes)
  have outputs := List.card_nsmul_le_sum _ _ (List.forall_mem_map.2 outputBytes)
  simp only [List.length_map, smul_eq_mul, UInt64.toNat_ofNat'] at inputs outputs estimate
  calc (calculateBtcTxSize _ _).toNat + 34 * tx.input.length
      ≤ 10 + 183 * tx.input.length + 34 * tx.output.length := by omega
    _ ≤ tx.encode.length := by
      have := one_le_length_encodeVarInt tx.input.length
      have := one_le_length_encodeVarInt tx.output.length
      rw [length_encode_of_legacy legacy]
      omega

theorem calculate_btc_tx_size_undercounts_p2sh_deposit_spends_for_72_byte_signature :
    let enclavePublicKeySlice : List UInt8 := List.replicate 33 2
    let ethAddressAndNonceHash : FixedBytes 32 := ⟨List.replicate 32 0, rfl⟩
    let redeemScript : Script := ⟨encodeAll [.pushBytes ethAddressAndNonceHash.bytes, .op opDrop,
      .pushBytes enclavePublicKeySlice, .op opChecksig]⟩
    let signatureSlice : List UInt8 := List.replicate 72 0x30
    let tx : Transaction := ⟨1, 0, [⟨⟨⟨List.replicate 32 0, rfl⟩, 0⟩,
      ⟨encodeAll [.pushBytes signatureSlice, .pushBytes redeemScript.bytes]⟩, defaultBtcSequence, []⟩],
      [⟨0, ⟨List.replicate 25 0⟩⟩]⟩
    33 ≤ enclavePublicKeySlice.length ∧ tx.hasWitness = false ∧
      (∀ output ∈ tx.output, 25 ≤ output.scriptPubkey.bytes.length) ∧
      (∀ input ∈ tx.input, ∃ ethAddressAndNonceHash redeemScript signatureSlice, 71 ≤ signatureSlice.length ∧
        getP2shRedeemScriptSig (ε := AppError) enclavePublicKeySlice ethAddressAndNonceHash = .ok redeemScript ∧
        getP2shScriptSigFromRedeemScript (ε := AppError) signatureSlice redeemScript = .ok input.scriptSig) ∧
      (calculateBtcTxSize (UInt64.ofNat tx.input.length) (UInt64.ofNat tx.output.length)).toNat +
          34 * tx.input.length ≤ tx.encode.length := by
  intro enclavePublicKeySlice ethAddressAndNonceHash redeemScript signatureSlice tx
  have keyLength : 33 ≤ enclavePublicKeySlice.length := by decide
  have legacy : tx.hasWitness = false := by decide
  have payToPubKeyHash : ∀ output ∈ tx.output, 25 ≤ output.scriptPubkey.bytes.length := by decide
  have spendsDeposits : ∀ input ∈ tx.input, ∃ ethAddressAndNonceHash redeemScript signatureSlice,
      71 ≤ signatureSlice.length ∧
      getP2shRedeemScriptSig (ε := AppError) enclavePublicKeySlice ethAddressAndNonceHash = .ok redeemScript ∧
      getP2shScriptSigFromRedeemScript (ε := AppError) signatureSlice redeemScript = .ok input.scriptSig := by
    intro input mem
    obtain rfl := List.mem_singleton.1 mem
    exact ⟨ethAddressAndNonceHash, redeemScript, signatureSlice, by decide,
      getP2shRedeemScriptSig_of_lt _ _ (by decide), signatureAndPushScript_of_lt _ _ (by decide) (by decide)⟩
  exact ⟨keyLength, legacy, payToPubKeyHash, spendsDeposits,
    calculate_btc_tx_size_undercounts_p2sh_deposit_spends tx enclavePublicKeySlice keyLength legacy payToPubKeyHash
      spendsDeposits⟩

/-- The pay-to-pubkey-hash spends the formula is written for fit in it, a byte to spare an input. -/
theorem calculate_btc_tx_size_covers_p2pkh_spends (tx : Transaction) (legacy : tx.hasWitness = false)
    (fewInputs : tx.input.length < 253) (fewOutputs : tx.output.length < 253)
    (payToPubKeyHash : ∀ output ∈ tx.output, output.scriptPubkey.bytes.length ≤ 25)
    (spendsPayToPubKeyHash : ∀ input ∈ tx.input, ∃ signatureSlice utxoSpenderPubKeySlice,
      signatureSlice.length ≤ 72 ∧ utxoSpenderPubKeySlice.length ≤ 33 ∧
      getScriptSig (ε := AppError) signatureSlice utxoSpenderPubKeySlice = .ok input.scriptSig) :
    tx.encode.length + tx.input.length ≤
      (calculateBtcTxSize (UInt64.ofNat tx.input.length) (UInt64.ofNat tx.output.length)).toNat := by
  have inputBytes : ∀ input ∈ tx.input, 40 + (encodeBytes input.scriptSig.bytes).length ≤ 148 := by
    intro input mem
    obtain ⟨signatureSlice, utxoSpenderPubKeySlice, short, shortKey, built⟩ := spendsPayToPubKeyHash input mem
    have scriptLength := length_signatureAndPushScript built
    rw [length_pushPrefix_of_lt (by omega), length_pushPrefix_of_lt (by omega)] at scriptLength
    simp only [encodeBytes, List.length_append, length_encodeVarInt_of_lt (show input.scriptSig.bytes.length < 253 by omega)]
    omega
  have outputBytes : ∀ output ∈ tx.output, 8 + (encodeBytes output.scriptPubkey.bytes).length ≤ 34 := by
    intro output mem
    have short := payToPubKeyHash output mem
    simp only [encodeBytes, List.length_append, length_encodeVarInt_of_lt (show output.scriptPubkey.bytes.length < 253 by omega)]
    omega
  have inputs := List.sum_le_card_nsmul _ _ (List.forall_mem_map.2 inputBytes)
  have outputs := List.sum_le_card_nsmul _ _ (List.forall_mem_map.2 outputBytes)
  simp only [List.length_map, smul_eq_mul] at inputs outputs
  calc tx.encode.length + tx.input.length
      ≤ 10 + 149 * tx.input.length + 34 * tx.output.length := by
        rw [length_encode_of_legacy legacy, length_encodeVarInt_of_lt fewInputs, length_encodeVarInt_of_lt fewOutputs]
        omega
    _ = (calculateBtcTxSize (UInt64.ofNat tx.input.length) (UInt64.ofNat tx.output.length)).toNat := by
        rw [calculateBtcTxSize_toNat_of_lt (by omega) (by omega)]
        omega

theorem calculate_btc_tx_size_covers_p2pkh_spends_for_72_byte_signature :
    let signatureSlice : List UInt8 := List.replicate 72 0x30
    let utxoSpenderPubKeySlice : List UInt8 := List.replicate 33 2
    let tx : Transaction := ⟨1, 0, [⟨⟨⟨List.replicate 32 0, rfl⟩, 0⟩,
      ⟨encodeAll [.pushBytes signatureSlice, .pushBytes utxoSpenderPubKeySlice]⟩, defaultBtcSequence, []⟩],
      [⟨0, ⟨List.replicate 25 0⟩⟩]⟩
    tx.hasWitness = false ∧ tx.input.length < 253 ∧ tx.output.length < 253 ∧
      (∀ output ∈ tx.output, output.scriptPubkey.bytes.length ≤ 25) ∧
      (∀ input ∈ tx.input, ∃ signatureSlice utxoSpenderPubKeySlice,
        signatureSlice.length ≤ 72 ∧ utxoSpenderPubKeySlice.length ≤ 33 ∧
        getScriptSig (ε := AppError) signatureSlice utxoSpenderPubKeySlice = .ok input.scriptSig) ∧
      tx.encode.length + tx.input.length ≤
        (calculateBtcTxSize (UInt64.ofNat tx.input.length) (UInt64.ofNat tx.output.length)).toNat := by
  intro signatureSlice utxoSpenderPubKeySlice tx
  have legacy : tx.hasWitness = false := by decide
  have payToPubKeyHash : ∀ output ∈ tx.output, output.scriptPubkey.bytes.length ≤ 25 := by decide
  have spends : ∀ input ∈ tx.input, ∃ signatureSlice utxoSpenderPubKeySlice,
      signatureSlice.length ≤ 72 ∧ utxoSpenderPubKeySlice.length ≤ 33 ∧
      getScriptSig (ε := AppError) signatureSlice utxoSpenderPubKeySlice = .ok input.scriptSig := by
    intro input mem
    obtain rfl := List.mem_singleton.1 mem
    exact ⟨signatureSlice, utxoSpenderPubKeySlice, by decide, by decide,
      signatureAndPushScript_of_lt _ _ (by decide) (by decide)⟩
  exact ⟨legacy, by decide, by decide, payToPubKeyHash, spends,
    calculate_btc_tx_size_covers_p2pkh_spends tx legacy (by decide) (by decide) payToPubKeyHash spends⟩

/-! ## Addresses -/

def convertBtcAddressToBytes (btcAddress : String) : Result (List UInt8) :=
  lift .base58 (fromBase58 btcAddress)

def convertBytesToBtcAddress (encodedBytes : List UInt8) : String :=
  base58EncodeSlice encodedBytes

def convertBtcAddressToPubKeyHashBytes (btcAddress : String) : Result (List UInt8) := do
  sliceRange (← lift .base58 (fromBase58 btcAddress)) 1 21

def getPayToPubKeyHashScript (btcAddress : String) : Result Script := do
  let builder ← ((Builder.new.pushOpcode opDup).pushOpcode opHash160).pushSlice
    (← convertBtcAddressToPubKeyHashBytes btcAddress)
  pure ((builder.pushOpcode opEqualVerify).pushOpcode opChecksig).intoScript

def createNewPayToPubKeyHashOutput (value : UInt64) (recipient : String) : Result TxOut := do
  createNewTxOutput value (← getPayToPubKeyHashScript recipient)

theorem lift_eq_ok {ε ε' α : Type} {convert : ε → ε'} {result : Except (Fault ε) α} {value : α}
    (lifted : lift convert result = .ok value) : result = .ok value := by
  cases result <;> simp_all [lift, Except.mapError]

theorem convertBtcAddressToPubKeyHashBytes_of_decode {btcAddress : String} {bytes : List UInt8}
    (decoded : fromBase58 btcAddress = .ok bytes) :
    convertBtcAddressToPubKeyHashBytes btcAddress = sliceRange bytes 1 21 := by
  simp [convertBtcAddressToPubKeyHashBytes, decoded]

theorem convertBtcAddressToPubKeyHashBytes_of_error {btcAddress : String} {error : Base58.Error}
    (failed : fromBase58 btcAddress = .error (.error error)) :
    convertBtcAddressToPubKeyHashBytes btcAddress = .error (.error (.base58 error)) := by
  simp [convertBtcAddressToPubKeyHashBytes, failed]

theorem convertBtcAddressToPubKeyHashBytes_cases (btcAddress : String) :
    (∃ error, fromBase58 btcAddress = .error (.error error) ∧
      convertBtcAddressToPubKeyHashBytes btcAddress = .error (.error (.base58 error))) ∨
    (∃ bytes, fromBase58 btcAddress = .ok bytes ∧ 21 ≤ bytes.length ∧
      convertBtcAddressToPubKeyHashBytes btcAddress = .ok ((bytes.drop 1).take 20)) ∨
    (∃ bytes, fromBase58 btcAddress = .ok bytes ∧ bytes.length < 21 ∧
      convertBtcAddressToPubKeyHashBytes btcAddress =
        .error (.panic ("range end index 21 out of range for slice of length " ++ toString bytes.length))) := by
  cases decoded : fromBase58 btcAddress with
  | error fault =>
    cases fault with
    | error error => exact .inl ⟨error, rfl, convertBtcAddressToPubKeyHashBytes_of_error decoded⟩
    | panic message => exact absurd decoded (fromBase58_ne_panic btcAddress message)
  | ok bytes =>
    rw [convertBtcAddressToPubKeyHashBytes_of_decode decoded]
    by_cases long : 21 ≤ bytes.length
    · exact .inr (.inl ⟨bytes, rfl, long, sliceRange_of_le _ (by norm_num) long⟩)
    · exact .inr (.inr ⟨bytes, rfl, by omega, sliceRange_of_lt _ (by norm_num) (by omega)⟩)

theorem getPayToPubKeyHashScript_of_hash {btcAddress : String} {hash : List UInt8}
    (converted : convertBtcAddressToPubKeyHashBytes btcAddress = .ok hash) (length : hash.length = 20) :
    getPayToPubKeyHashScript btcAddress =
      .ok ⟨encodeAll [.op opDup, .op opHash160, .pushBytes hash, .op opEqualVerify, .op opChecksig]⟩ := by
  simp [getPayToPubKeyHashScript, converted, pushSlice_of_lt _ (by rw [length]; decide : hash.length < 2 ^ 32), Builder.new,
    Builder.pushOpcode, Builder.intoScript, encodeAll, Instruction.encode]

theorem getPayToPubKeyHashScript_of_fault {btcAddress : String} {fault : Fault AppError}
    (failed : convertBtcAddressToPubKeyHashBytes btcAddress = .error fault) :
    getPayToPubKeyHashScript btcAddress = .error fault := by
  simp [getPayToPubKeyHashScript, failed]

/-- The empty text decodes to no bytes, and the slice `[1..21]` of them panics. -/
theorem convert_btc_address_to_pub_key_hash_bytes_panics_on_empty_address (value : UInt64) :
    convertBtcAddressToBytes "" = .ok [] ∧
      convertBtcAddressToPubKeyHashBytes "" = .error (.panic "range end index 21 out of range for slice of length 0") ∧
      getPayToPubKeyHashScript "" = .error (.panic "range end index 21 out of range for slice of length 0") ∧
      createNewPayToPubKeyHashOutput value "" =
        .error (.panic "range end index 21 out of range for slice of length 0") := by
  have converted : convertBtcAddressToPubKeyHashBytes "" =
      .error (.panic "range end index 21 out of range for slice of length 0") := by decide
  exact ⟨by decide, converted, getPayToPubKeyHashScript_of_fault converted,
    by simp [createNewPayToPubKeyHashOutput, getPayToPubKeyHashScript_of_fault converted]⟩

/-- Any decoding of 21 bytes or more gives a script of its bytes 1 to 20, with no check of its
length, checksum or version; only a character outside the alphabet gives an `Err`. -/
theorem get_pay_to_pub_key_hash_script_of_decoded_bytes (btcAddress : String) (script : Script) :
    (getPayToPubKeyHashScript btcAddress = .ok script ↔
      ∃ bytes, convertBtcAddressToBytes btcAddress = .ok bytes ∧ 21 ≤ bytes.length ∧
        script = ⟨encodeAll [.op opDup, .op opHash160, .pushBytes ((bytes.drop 1).take 20), .op opEqualVerify,
          .op opChecksig]⟩) ∧
    ((∃ c ∈ btcAddress.data, c.toNat ∉ base58Chars.map UInt8.toNat) →
      ∃ error, getPayToPubKeyHashScript btcAddress = .error (.error (.base58 error))) := by
  refine ⟨⟨fun built => ?_, ?_⟩, fun ⟨c, mem, outside⟩ => ?_⟩
  · rcases convertBtcAddressToPubKeyHashBytes_cases btcAddress with
      ⟨error, -, failed⟩ | ⟨bytes, decoded, long, converted⟩ | ⟨bytes, -, -, failed⟩
    · rw [getPayToPubKeyHashScript_of_fault failed] at built
      cases built
    · rw [getPayToPubKeyHashScript_of_hash converted (by simp; omega)] at built
      exact ⟨bytes, by simp [convertBtcAddressToBytes, decoded], long, (Except.ok.inj built).symm⟩
    · rw [getPayToPubKeyHashScript_of_fault failed] at built
      cases built
  · rintro ⟨bytes, decoded, long, rfl⟩
    exact getPayToPubKeyHashScript_of_hash (by rw [convertBtcAddressToPubKeyHashBytes_of_decode (lift_eq_ok decoded),
      sliceRange_of_le _ (by norm_num) long]) (by simp; omega)
  · obtain ⟨error, decoded⟩ := fromBase58_error_of_not_mem mem outside
    exact ⟨error, getPayToPubKeyHashScript_of_fault (convertBtcAddressToPubKeyHashBytes_of_error decoded)⟩

theorem createNewPayToPubKeyHashOutput_checkEncodeSlice (hashes : Hashes) (value : UInt64) (version : UInt8)
    (hash : FixedBytes 20) :
    createNewPayToPubKeyHashOutput value (checkEncodeSlice hashes (version :: hash.bytes)) =
      .ok ⟨value, ⟨encodeAll [.op opDup, .op opHash160, .pushBytes hash.bytes, .op opEqualVerify, .op opChecksig]⟩⟩ := by
  have converted : convertBtcAddressToPubKeyHashBytes (checkEncodeSlice hashes (version :: hash.bytes)) =
      .ok hash.bytes := by
    rw [convertBtcAddressToPubKeyHashBytes_of_decode (fromBase58_checkEncodeSlice _ _),
      sliceRange_of_le _ (by norm_num) (by simp [hash.length_eq])]
    simp [hash.length_eq]
  simp [createNewPayToPubKeyHashOutput, getPayToPubKeyHashScript_of_hash converted hash.length_eq, createNewTxOutput]

/-- The output for a base-58 address pays the pubkey-hash address of its 20 bytes, whatever the
address's type. -/
theorem create_new_pay_to_pub_key_hash_output_pays_address_hash (hashes : Hashes)
    (bech32 : Nat → List UInt8 → Network → String) (value : UInt64) :
    (∀ (hash : FixedBytes 20) (network : Network), ∃ script,
      createNewPayToPubKeyHashOutput value (Address.toString hashes bech32 ⟨.pubkeyHash hash, network⟩) =
        .ok ⟨value, script⟩ ∧ script.isP2pkh ∧ Address.fromScript script network = some ⟨.pubkeyHash hash, network⟩) ∧
    (∀ (hash : FixedBytes 20) (network : Network), ∃ script,
      createNewPayToPubKeyHashOutput value (Address.toString hashes bech32 ⟨.scriptHash hash, network⟩) =
        .ok ⟨value, script⟩ ∧ script.isP2pkh ∧ Address.fromScript script network = some ⟨.pubkeyHash hash, network⟩) :=
  ⟨fun hash network => ⟨_, createNewPayToPubKeyHashOutput_checkEncodeSlice hashes value _ hash,
      Script.isP2pkh_payToPubKeyHash hash, Address.fromScript_payToPubKeyHash hash network⟩,
    fun hash network => ⟨_, createNewPayToPubKeyHashOutput_checkEncodeSlice hashes value _ hash,
      Script.isP2pkh_payToPubKeyHash hash, Address.fromScript_payToPubKeyHash hash network⟩⟩

theorem get_pay_to_pub_key_hash_script_accepts_21_zero_bytes :
    convertBtcAddressToBytes "111111111111111111111" = .ok (List.replicate 21 0) ∧
      getPayToPubKeyHashScript "111111111111111111111" =
        .ok ⟨encodeAll [.op opDup, .op opHash160, .pushBytes (List.replicate 20 0), .op opEqualVerify,
          .op opChecksig]⟩ := by
  decide

/-- Text and bytes convert into each other both ways, a leading `1` for each leading zero byte. -/
theorem convert_btc_address_round_trip :
    (∀ bytes, convertBtcAddressToBytes (convertBytesToBtcAddress bytes) = .ok bytes) ∧
      (∀ btcAddress bytes, convertBtcAddressToBytes btcAddress = .ok bytes →
        convertBytesToBtcAddress bytes = btcAddress) ∧
      (∀ bytes, ((convertBytesToBtcAddress bytes).data.takeWhile (· == '1')).length =
        (bytes.takeWhile (· == 0)).length) ∧
      (∀ btcAddress bytes, convertBtcAddressToBytes btcAddress = .ok bytes →
        (btcAddress.data.takeWhile (· == '1')).length = (bytes.takeWhile (· == 0)).length) ∧
      convertBytesToBtcAddress [] = "" ∧ convertBtcAddressToBytes "" = .ok [] := by
  have encoded : ∀ btcAddress bytes, convertBtcAddressToBytes btcAddress = .ok bytes →
      convertBytesToBtcAddress bytes = btcAddress :=
    fun _ _ decoded => base58EncodeSlice_fromBase58 (lift_eq_ok decoded)
  refine ⟨fun bytes => ?_, encoded, base58EncodeSlice_leading, fun btcAddress bytes decoded => ?_, by decide, by decide⟩
  · simp [convertBtcAddressToBytes, convertBytesToBtcAddress, fromBase58_base58EncodeSlice]
  · rw [← encoded btcAddress bytes decoded]
    exact base58EncodeSlice_leading bytes

end PtokensCore.Btc

import PtokensCore.Bitcoin.Address

/-! Transactions and blocks, and their consensus encoding.

The encoder follows `consensus::encode::serialize` of the `bitcoin` crate: integers are
little-endian, every vector is prefixed with its length as a `VarInt`, and a transaction
is written in the segregated-witness form (marker `0x00`, flag `0x01`, witnesses after the
outputs) exactly when it has no input or some input carries a witness.
-/

set_option autoImplicit false

namespace PtokensCore.Bitcoin

structure OutPoint where
  txid : FixedBytes 32
  vout : UInt32
  deriving DecidableEq

structure TxIn where
  previousOutput : OutPoint
  scriptSig : Script
  sequence : UInt32
  witness : List (List UInt8)
  deriving DecidableEq

structure TxOut where
  value : UInt64
  scriptPubkey : Script
  deriving DecidableEq

structure Transaction where
  version : UInt32
  lockTime : UInt32
  input : List TxIn
  output : List TxOut
  deriving DecidableEq

structure BlockHeader where
  version : UInt32
  prevBlockhash : FixedBytes 32
  merkleRoot : FixedBytes 32
  time : UInt32
  bits : UInt32
  nonce : UInt32
  deriving DecidableEq

structure Block where
  header : BlockHeader
  txdata : List Transaction
  deriving DecidableEq

/-! ## Encoding -/

/-- `VarInt`: the shortest of the four CompactSize forms. -/
def encodeVarInt (n : Nat) : List UInt8 :=
  if n < 0xfd then [UInt8.ofNat n]
  else if n ≤ 0xffff then 0xfd :: toLeBytes 2 n
  else if n ≤ 0xffffffff then 0xfe :: toLeBytes 4 n
  else 0xff :: toLeBytes 8 n

def encodeU32 (value : UInt32) : List UInt8 := toLeBytes 4 value.toNat

def encodeU64 (value : UInt64) : List UInt8 := toLeBytes 8 value.toNat

/-- `Vec<u8>` and `Script`: the length, then the bytes. -/
def encodeBytes (bytes : List UInt8) : List UInt8 := encodeVarInt bytes.length ++ bytes

/-- A `Vec<T>`: the length, then each element. -/
def encodeVec {α : Type} (encode : α → List UInt8) (items : List α) : List UInt8 :=
  encodeVarInt items.length ++ items.flatMap encode

def OutPoint.encode (outpoint : OutPoint) : List UInt8 := outpoint.txid.bytes ++ encodeU32 outpoint.vout

def TxIn.encode (input : TxIn) : List UInt8 :=
  input.previousOutput.encode ++ encodeBytes input.scriptSig.bytes ++ encodeU32 input.sequence

def TxOut.encode (output : TxOut) : List UInt8 := encodeU64 output.value ++ encodeBytes output.scriptPubkey.bytes

/-- Whether `consensus_encode` writes the witness form: no input, or an input with a witness. -/
def Transaction.hasWitness (tx : Transaction) : Bool :=
  tx.input.isEmpty || tx.input.any (fun input => !input.witness.isEmpty)

def Transaction.encode (tx : Transaction) : List UInt8 :=
  encodeU32 tx.version ++
    (if tx.hasWitness then
      [0x00, 0x01] ++ encodeVec TxIn.encode tx.input ++ encodeVec TxOut.encode tx.output ++
        tx.input.flatMap (fun input => encodeVec encodeBytes input.witness)
    else encodeVec TxIn.encode tx.input ++ encodeVec TxOut.encode tx.output) ++
    encodeU32 tx.lockTime

/-- The legacy serialization that `txid` hashes: the witnesses are left out. -/
def Transaction.encodeWithoutWitness (tx : Transaction) : List UInt8 :=
  encodeU32 tx.version ++ encodeVec TxIn.encode tx.input ++ encodeVec TxOut.encode tx.output ++
    encodeU32 tx.lockTime

def Transaction.txid (hashes : Hashes) (tx : Transaction) : FixedBytes 32 :=
  hashes.sha256d tx.encodeWithoutWitness

def BlockHeader.encode (header : BlockHeader) : List UInt8 :=
  encodeU32 header.version ++ header.prevBlockhash.bytes ++ header.merkleRoot.bytes ++
    encodeU32 header.time ++ encodeU32 header.bits ++ encodeU32 header.nonce

def Block.encode (block : Block) : List UInt8 := block.header.encode ++ encodeVec Transaction.encode block.txdata

/-! ## Lengths -/

theorem length_encodeVarInt_of_lt {n : Nat} (small : n < 253) : (encodeVarInt n).length = 1 := by
  simp [encodeVarInt, small]

theorem one_le_length_encodeVarInt (n : Nat) : 1 ≤ (encodeVarInt n).length := by
  unfold encodeVarInt
  split_ifs <;> simp

/-- A transaction without witnesses: version and lock time, the two counts, and each input's
40 fixed bytes and each output's 8 around their scripts. -/
theorem length_encode_of_legacy {tx : Transaction} (legacy : tx.hasWitness = false) :
    tx.encode.length = 8 + (encodeVarInt tx.input.length).length + (encodeVarInt tx.output.length).length +
      (tx.input.map fun input => 40 + (encodeBytes input.scriptSig.bytes).length).sum +
      (tx.output.map fun output => 8 + (encodeBytes output.scriptPubkey.bytes).length).sum := by
  simp [Transaction.encode, legacy, encodeVec, List.length_flatMap, Function.comp_def, TxIn.encode, TxOut.encode,
    OutPoint.encode, encodeU32, encodeU64, FixedBytes.length_eq]
  omega

end PtokensCore.Bitcoin

import PtokensCore.Traits
import PtokensCore.Utils
import Mathlib.Tactic.DeriveFintype

/-! The ETH side's state and the database writes its initialisation makes.

`eth_state.rs`, `eth_types.rs`, `eth_database_utils.rs` and `constants.rs` are not among the
sources. Modelled from the spec (§3 ChainPointers, §6 persistence keys): the state carries the
store and the block being processed; each pointer and setting lives under a key of its own, a
hash as its 32 bytes, an integer as its eight bytes, the chain id as one byte; a block and its
receipts are stored under the block's hash.
-/

set_option autoImplicit false

namespace PtokensCore.Eth

open PtokensCore.Btc

/-- `EthBlock`. Of a block only its hash is read here. -/
structure EthBlock where
  hash : FixedBytes 32
  deriving DecidableEq

/-- `EthBlockAndReceipts`. No modelled function looks inside a receipt: each is kept as its
encoding. -/
structure EthBlockAndReceipts where
  block : EthBlock
  receipts : List (List UInt8)
  deriving DecidableEq

/-- `EthState`: the store and the block being processed, if one has been added. -/
structure EthState (σ : Type) where
  db : σ
  ethBlockAndReceipts : Option EthBlockAndReceipts

namespace EthState

variable {σ : Type}

/-- `get_eth_block_and_receipts`. Modelled from the spec; the text of the error is not known. -/
def getEthBlockAndReceipts (state : EthState σ) : Result EthBlockAndReceipts :=
  match state.ethBlockAndReceipts with
  | some blockAndReceipts => .ok blockAndReceipts
  | none => .error (.error (.custom "✘ No ETH block and receipts in state!"))

/-- `update_eth_block_and_receipts`. Modelled from the spec: the new block replaces the old. -/
def updateEthBlockAndReceipts (state : EthState σ) (blockAndReceipts : EthBlockAndReceipts) :
    Result (EthState σ) :=
  .ok { state with ethBlockAndReceipts := some blockAndReceipts }

@[simp] theorem getEthBlockAndReceipts_of_some {state : EthState σ} {blockAndReceipts : EthBlockAndReceipts}
    (has : state.ethBlockAndReceipts = some blockAndReceipts) :
    state.getEthBlockAndReceipts = .ok blockAndReceipts := by
  simp [getEthBlockAndReceipts, has]

end EthState

/-! ## Keys -/

/-- The pointers and settings the ETH side keeps, one key each. -/
inductive EthDbKey
  | latestBlockHash
  | canonBlockHash
  | anchorBlockHash
  | tailBlockHash
  | canonToTipLength
  | chainId
  | gasPrice
  | accountNonce
  deriving DecidableEq, Fintype, Repr

/-- The key constants of `constants.rs` (`ETH_LATEST_BLOCK_HASH_KEY` and the rest): pairwise
distinct byte strings. -/
structure EthDbKeys where
  key : EthDbKey → List UInt8
  injective : Function.Injective key

/-! ## Writes -/

section DatabaseUtils

variable {σ : Type} (db : DatabaseInterface σ) (keys : EthDbKeys)

/-- `put_eth_hash_in_db`: a hash as its 32 bytes. -/
def putEthHashInDb (store : σ) (key : List UInt8) (hash : FixedBytes 32) : Result σ :=
  db.put store key hash.bytes

/-- `put_u64_in_db`: an integer as its eight bytes. -/
def putU64InDb (store : σ) (key : List UInt8) (value : UInt64) : Result σ :=
  db.put store key (convertU64ToBytes value)

def putEthLatestBlockHashInDb (store : σ) (hash : FixedBytes 32) : Result σ :=
  putEthHashInDb db store (keys.key .latestBlockHash) hash

def putEthCanonBlockHashInDb (store : σ) (hash : FixedBytes 32) : Result σ :=
  putEthHashInDb db store (keys.key .canonBlockHash) hash

def putEthAnchorBlockHashInDb (store : σ) (hash : FixedBytes 32) : Result σ :=
  putEthHashInDb db store (keys.key .anchorBlockHash) hash

def putEthTailBlockHashInDb (store : σ) (hash : FixedBytes 32) : Result σ :=
  putEthHashInDb db store (keys.key .tailBlockHash) hash

def putEthCanonToTipLengthInDb (store : σ) (length : UInt64) : Result σ :=
  putU64InDb db store (keys.key .canonToTipLength) length

/-- `put_eth_chain_id_in_db`: the chain id as one byte. -/
def putEthChainIdInDb (store : σ) (chainId : UInt8) : Result σ :=
  db.put store (keys.key .chainId) [chainId]

def putEthGasPriceInDb (store : σ) (gasPrice : UInt64) : Result σ :=
  putU64InDb db store (keys.key .gasPrice) gasPrice

def putEthAccountNonceInDb (store : σ) (nonce : UInt64) : Result σ :=
  putU64InDb db store (keys.key .accountNonce) nonce

/-- `put_eth_block_and_receipts_in_db`: the block and its receipts, in the encoding the caller
fixes, under the block's hash. -/
def putEthBlockAndReceiptsInDb (encode : EthBlockAndReceipts → List UInt8) (store : σ)
    (blockAndReceipts : EthBlockAndReceipts) : Result σ :=
  db.put store blockAndReceipts.block.hash.bytes (encode blockAndReceipts)

end DatabaseUtils

/-! ## What the store says

The spec's `ChainPointers` for the ETH side, with the settings kept beside them, read from
what the store holds under each key. -/

/-- A hash as the store keeps it. -/
def readHash (bytes : Option (List UInt8)) : Option (FixedBytes 32) :=
  bytes.bind FixedBytes.fromSlice?

/-- An integer as the store keeps it (`convert_bytes_to_u64`). -/
def readU64 (bytes : Option (List UInt8)) : Option UInt64 :=
  bytes.bind fun bytes => (convertBytesToU64 bytes).toOption

/-- A single byte. -/
def readByte : Option (List UInt8) → Option UInt8
  | some [byte] => some byte
  | _ => none

@[simp] theorem readHash_bytes (hash : FixedBytes 32) : readHash (some hash.bytes) = some hash := by
  simp [readHash]

@[simp] theorem readU64_convertU64ToBytes (value : UInt64) :
    readU64 (some (convertU64ToBytes value)) = some value := by
  simp [readU64, convertBytesToU64_convertU64ToBytes, Except.toOption]

@[simp] theorem readByte_singleton (byte : UInt8) : readByte (some [byte]) = some byte := rfl

/-- The pointers and settings of the ETH side. -/
structure ChainPointers where
  latest : Option (FixedBytes 32)
  canon : Option (FixedBytes 32)
  anchor : Option (FixedBytes 32)
  tail : Option (FixedBytes 32)
  canonToTipLength : Option UInt64
  chainId : Option UInt8
  gasPrice : Option UInt64
  accountNonce : Option UInt64
  deriving DecidableEq

/-- The pointers, given what the store holds under each key. -/
def ChainPointers.ofContents (contents : EthDbKey → Option (List UInt8)) : ChainPointers where
  latest := readHash (contents .latestBlockHash)
  canon := readHash (contents .canonBlockHash)
  anchor := readHash (contents .anchorBlockHash)
  tail := readHash (contents .tailBlockHash)
  canonToTipLength := readU64 (contents .canonToTipLength)
  chainId := readByte (contents .chainId)
  gasPrice := readU64 (contents .gasPrice)
  accountNonce := readU64 (contents .accountNonce)

/-- What a store holds under the ETH keys. -/
def contents {σ : Type} (db : DatabaseInterface σ) (keys : EthDbKeys) (store : σ) :
    EthDbKey → Option (List UInt8) :=
  fun key => db.get store (keys.key key)

section Frame

variable {σ : Type} {db : DatabaseInterface σ} (lawful : db.Lawful) (keys : EthDbKeys)
include lawful

/-- A write under one of the ETH keys changes what is held under that key only. -/
theorem contents_of_put {store store' : σ} {key : EthDbKey} {value : List UInt8}
    (put : db.put store (keys.key key) value = .ok store') :
    contents db keys store' = Function.update (contents db keys store) key (some value) := by
  funext other
  by_cases same : other = key
  · subst same
    simp [contents, lawful.get_put_self put]
  · simp [contents, Function.update_noteq same, lawful.get_put_ne _ put (keys.injective.ne same)]

/-- A write under any other key leaves the ETH keys as they were. -/
theorem contents_of_put_other {store store' : σ} {key value : List UInt8}
    (put : db.put store key value = .ok store') (away : ∀ ethKey, keys.key ethKey ≠ key) :
    contents db keys store' = contents db keys store :=
  funext fun ethKey => lawful.get_put_ne _ put (away ethKey)

end Frame

end PtokensCore.Eth

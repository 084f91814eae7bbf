import PtokensCore.Bitcoin.Consensus
import PtokensCore.Base58
import PtokensCore.SerdeJson.HexForms
import Mathlib.Data.List.AList

/-! The data types of `btc_types.rs` that the modelled functions read and build.

`btc_types.rs` is not among the sources; the fields below are the ones the functions of
`btc_utils.rs`, `get_deposit_info_hash_map.rs` and `filter_p2sh_deposit_txs.rs` read, and
the JSON names of a minting parameter are the ones `should_serde_minting_params` expects.
-/

set_option autoImplicit false

namespace PtokensCore.Btc

open PtokensCore.Bitcoin PtokensCore.SerdeJson

/-- `AppError`, the crate's error type: each library error arrives through `From`. -/
inductive AppError where
  | custom (message : String)
  | bitcoinEncode (error : EncodeError)
  | base58 (error : Base58.Error)
  | serdeJson (error : SerdeJson.Error)
  /-- `bitcoin_hashes::Error::InvalidLength`. -/
  | hashesInvalidLength (expected actual : Nat)
  deriving DecidableEq, Repr

/-- The crate's `Result<T>`, with the panics that abort the enclave kept apart. -/
abbrev Result (α : Type) := Except (Fault AppError) α

/-- `DepositAddressInfo`: one registered deposit address and the hash it was derived from. -/
structure DepositAddressInfo where
  nonce : UInt64
  ethAddress : FixedBytes 20
  btcDepositAddress : Address
  ethAddressAndNonceHash : FixedBytes 32
  deriving DecidableEq

abbrev DepositInfoList := List DepositAddressInfo

/-- `HashMap<BtcAddress, DepositAddressInfo>`, as the finite map it is: keys are unique,
`insert` replaces the value of a present key, and iteration order plays no part. -/
abbrev DepositInfoHashMap := AList (fun _ : Address => DepositAddressInfo)

/-- `HashMap::len`. -/
def DepositInfoHashMap.len (hashMap : DepositInfoHashMap) : Nat := hashMap.keys.length

abbrev BtcTransactions := List Transaction

/-- `DepositAddressInfoJson`: the registry entry in its JSON form, every field as text. -/
structure DepositAddressInfoJson where
  nonce : UInt64
  btcDepositAddress : String
  ethAddress : String
  ethAddressAndNonceHash : String
  deriving DecidableEq

/-- `BtcUtxoAndValue`: a spendable input, kept serialized, with the value it carries.
`maybe_pointer` is the hash key of the next entry of the store's list of UTXOs. -/
structure BtcUtxoAndValue where
  value : UInt64
  serializedUtxo : List UInt8
  maybeDepositInfoJson : Option DepositAddressInfoJson
  maybeExtraData : Option (List UInt8)
  maybePointer : Option (FixedBytes 32)
  deriving DecidableEq

abbrev BtcUtxosAndValues := List BtcUtxoAndValue

/-- `MintingParamStruct`: one mint a block's deposits ask for. `new` stores the originating
address as its text. -/
structure MintingParamStruct where
  amount : U256
  ethAddress : FixedBytes 20
  originatingTxHash : FixedBytes 32
  originatingTxAddress : RustString
  deriving DecidableEq

abbrev MintingParams := List MintingParamStruct

/-- `BtcBlockAndId`: a submitted block with its height and hash, and the deposit addresses
registered for it. -/
structure BtcBlockAndId where
  height : UInt64
  id : FixedBytes 32
  block : Block
  depositAddressList : DepositInfoList
  deriving DecidableEq

/-- `BtcBlockInDbFormat`: a block as the enclave stores it. -/
structure BtcBlockInDbFormat where
  height : UInt64
  id : FixedBytes 32
  mintingParams : MintingParams
  block : Block
  extraData : List UInt8
  deriving DecidableEq

end PtokensCore.Btc

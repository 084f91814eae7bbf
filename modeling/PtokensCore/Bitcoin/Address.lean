import PtokensCore.Bitcoin.Script
import PtokensCore.Base58

/-! Addresses as the `bitcoin` crate derives them from output scripts and writes them as text.

An address is a payload and a network. `from_script` recognises the standard output
scripts; `p2sh` wraps any script in the script-hash form; `Display` writes a hash payload
as base-58 text with a version byte and a checksum. The hash functions of `bitcoin_hashes`
are not modelled: every result below holds for any functions of the right widths, which
are a parameter of the model.
-/

set_option autoImplicit false

namespace PtokensCore.Bitcoin

/-- `sha256d` and `hash160`, taken as parameters. -/
structure Hashes where
  sha256d : List UInt8 → FixedBytes 32
  hash160 : List UInt8 → FixedBytes 20

inductive Network where
  | bitcoin
  | testnet
  | regtest
  deriving DecidableEq, Hashable, Repr

inductive Payload where
  | pubkeyHash (hash : FixedBytes 20)
  | scriptHash (hash : FixedBytes 20)
  | witnessProgram (version : Nat) (program : List UInt8)
  deriving DecidableEq, Hashable

structure Address where
  payload : Payload
  network : Network
  deriving DecidableEq, Hashable

/-- The twenty bytes at `start` of a script known to have `start + 20` bytes or more, as the
`from_slice(..).unwrap()` of `from_script` reads them. -/
def Script.hashAt (script : Script) (start : Nat) (long : start + 20 ≤ script.bytes.length) : FixedBytes 20 :=
  ⟨(script.bytes.drop start).take 20, by simp; omega⟩

/-- `Address::from_script`. -/
def Address.fromScript (script : Script) (network : Network) : Option Address :=
  if p2pkh : script.isP2pkh then
    some ⟨.pubkeyHash (script.hashAt 3 (by rw [Script.length_of_isP2pkh p2pkh]; omega)), network⟩
  else if p2sh : script.isP2sh then
    some ⟨.scriptHash (script.hashAt 2 (by rw [Script.length_of_isP2sh p2sh]; omega)), network⟩
  else if script.isWitnessProgram then
    let version := script.bytes.headD 0
    some ⟨.witnessProgram (if version > 0x50 then version.toNat - 0x50 else version.toNat)
      (script.bytes.drop 2), network⟩
  else none

/-- `Address::p2sh`: the script-hash address of a redeem script. -/
def Address.p2sh (hashes : Hashes) (script : Script) (network : Network) : Address :=
  ⟨.scriptHash (hashes.hash160 script.bytes), network⟩

theorem Address.fromScript_of_isP2sh {script : Script} (p2sh : script.isP2sh) (network : Network) :
    Address.fromScript script network =
      some ⟨.scriptHash (script.hashAt 2 (by rw [Script.length_of_isP2sh p2sh]; omega)), network⟩ := by
  have notP2pkh : ¬script.isP2pkh := fun p2pkh => by
    have := Script.length_of_isP2pkh p2pkh
    rw [Script.length_of_isP2sh p2sh] at this
    cases this
  simp [fromScript, notP2pkh, p2sh]

/-- A pay-to-script-hash output read as the script-hash address of a redeem script is
`OP_HASH160 <hash160 of the redeem script> OP_EQUAL`. -/
theorem Script.bytes_of_fromScript_p2sh {script redeemScript : Script} {hashes : Hashes} {network : Network}
    (p2sh : script.isP2sh) (found : Address.fromScript script network = some (Address.p2sh hashes redeemScript network)) :
    script.bytes = opHash160 :: opPushbytes20 :: (hashes.hash160 redeemScript.bytes).bytes ++ [opEqual] := by
  rw [Address.fromScript_of_isP2sh p2sh] at found
  simp only [Address.p2sh, Option.some.injEq, Address.mk.injEq, Payload.scriptHash.injEq, and_true] at found
  rw [Script.bytes_of_isP2sh p2sh, ← found]
  rfl

/-- The script `OP_DUP OP_HASH160 <hash> OP_EQUALVERIFY OP_CHECKSIG` pays to the hash, on any network. -/
theorem Script.isP2pkh_payToPubKeyHash (hash : FixedBytes 20) :
    Script.isP2pkh ⟨encodeAll [.op opDup, .op opHash160, .pushBytes hash.bytes, .op opEqualVerify, .op opChecksig]⟩ := by
  obtain ⟨bytes, length⟩ := hash
  simp [isP2pkh, encodeAll, Instruction.encode, length, pushPrefix, List.getElem_append_right, opPushbytes20]

theorem Address.fromScript_payToPubKeyHash (hash : FixedBytes 20) (network : Network) :
    Address.fromScript ⟨encodeAll [.op opDup, .op opHash160, .pushBytes hash.bytes, .op opEqualVerify, .op opChecksig]⟩
      network = some ⟨.pubkeyHash hash, network⟩ := by
  rw [fromScript, dif_pos (Script.isP2pkh_payToPubKeyHash hash)]
  congr
  apply FixedBytes.bytes_injective
  obtain ⟨bytes, length⟩ := hash
  simp [Script.hashAt, encodeAll, Instruction.encode, pushPrefix, length]

/-! ## Text -/

/-- `base58::check_encode_slice`: the data followed by the first four bytes of its `sha256d`,
in base 58. The `bitcoin` crate's base-58 writer puts down the same digits as the crate's
own `encode_slice`. -/
def checkEncodeSlice (hashes : Hashes) (data : List UInt8) : String :=
  Base58.base58EncodeSlice (data ++ (hashes.sha256d data).bytes.take 4)

/-- The version byte `Display` writes before a public-key hash. -/
def pubkeyHashVersion : Network → UInt8
  | .bitcoin => 0
  | .testnet | .regtest => 111

/-- The version byte `Display` writes before a script hash. -/
def scriptHashVersion : Network → UInt8
  | .bitcoin => 5
  | .testnet | .regtest => 196

/-- `Display for Address` (`to_string`). The bech32 text of a witness program is not modelled:
it is a parameter. -/
def Address.toString (hashes : Hashes) (bech32 : Nat → List UInt8 → Network → String) (address : Address) :
    String :=
  match address.payload with
  | .pubkeyHash hash => checkEncodeSlice hashes (pubkeyHashVersion address.network :: hash.bytes)
  | .scriptHash hash => checkEncodeSlice hashes (scriptHashVersion address.network :: hash.bytes)
  | .witnessProgram version program => bech32 version program address.network

theorem fromBase58_checkEncodeSlice (hashes : Hashes) (data : List UInt8) :
    Base58.fromBase58 (checkEncodeSlice hashes data) = .ok (data ++ (hashes.sha256d data).bytes.take 4) :=
  Base58.fromBase58_base58EncodeSlice _

/-- The payloads `Display` writes in base 58. -/
def Payload.isHash : Payload → Bool
  | .pubkeyHash _ | .scriptHash _ => true
  | .witnessProgram .. => false

theorem checkEncodeSlice_version_inj (hashes : Hashes) {version version' : UInt8} {hash hash' : FixedBytes 20} :
    checkEncodeSlice hashes (version :: hash.bytes) = checkEncodeSlice hashes (version' :: hash'.bytes) ↔
      version = version' ∧ hash = hash' := by
  refine ⟨fun same => ?_, fun ⟨sameVersion, sameHash⟩ => sameVersion ▸ sameHash ▸ rfl⟩
  have decoded := congrArg Base58.fromBase58 same
  rw [fromBase58_checkEncodeSlice, fromBase58_checkEncodeSlice, Except.ok.injEq] at decoded
  have front := congrArg (List.take 21) decoded
  simp [List.take_append_eq_append_take, hash.length_eq, hash'.length_eq] at front
  exact ⟨front.1, FixedBytes.bytes_injective front.2⟩

/-- Two base-58 addresses are written alike exactly when they carry the same payload and are
both on the main network or both off it: testnet and regtest share their version bytes. -/
theorem Address.toString_inj (hashes : Hashes) (bech32 : Nat → List UInt8 → Network → String)
    {address address' : Address} (base58 : address.payload.isHash) (base58' : address'.payload.isHash) :
    address.toString hashes bech32 = address'.toString hashes bech32 ↔
      address.payload = address'.payload ∧ (address.network = .bitcoin ↔ address'.network = .bitcoin) := by
  obtain ⟨payload, network⟩ := address
  obtain ⟨payload', network'⟩ := address'
  cases payload <;> cases payload' <;> simp [Payload.isHash] at base58 base58' <;>
    cases network <;> cases network' <;>
    simp [Address.toString, checkEncodeSlice_version_inj, pubkeyHashVersion, scriptHashVersion]

end PtokensCore.Bitcoin

import PtokensCore.SerdeJson.Serde
import Mathlib.Data.Nat.Log

/-! The text forms of the fixed-size values a minting parameter carries.

`U256` and `H160` come from `ethereum-types` and are written by `impl-serde`: `0x`, then the
digits without leading zeros for a number, two digits per byte for an address. A
`sha256d::Hash` of `bitcoin_hashes` is written in its display form, two digits per byte with
the last byte first and no prefix. All three write lower-case digits and read either case.
-/

set_option autoImplicit false

namespace PtokensCore.SerdeJson

open Nat (digits)

/-- A 256-bit unsigned integer. -/
structure U256 where
  toNat : Nat
  lt : toNat < 2 ^ 256
  deriving DecidableEq

/-! ## Writing -/

/-- `0x`. -/
def hexPrefix : List UInt8 := [0x30, 0x78]

/-- The digits of a number, most significant first, without leading zeros; `0` for zero. -/
def hexNumeral (value : Nat) : List UInt8 :=
  if value = 0 then [0x30] else (digits 16 value).reverse.map hexDigit

/-- Two digits per byte, the high one first (`hex::encode`, `to_hex`). -/
def hexEncode (bytes : List UInt8) : List UInt8 :=
  bytes.flatMap fun byte => [hexDigit (byte.toNat / 16), hexDigit (byte.toNat % 16)]

/-- `serialize_uint`. -/
def u256Value (value : U256) : Value := .string (escape (hexPrefix ++ hexNumeral value.toNat))

/-- `serialize_raw` of an `H160`. -/
def h160Value (address : FixedBytes 20) : Value := .string (escape (hexPrefix ++ hexEncode address.bytes))

/-- The display form of a `sha256d::Hash`. -/
def sha256dValue (hash : FixedBytes 32) : Value := .string (escape (hexEncode hash.bytes.reverse))

/-! ## Reading -/

def hexDigitValue (byte : UInt8) : Except Error Nat :=
  match hexValue byte with
  | some digit => .ok digit
  | none => .error (.message "invalid hex character")

/-- `FromHex`: two digits per byte, the high one first. -/
def hexDecode : List UInt8 → Except Error (List UInt8)
  | [] => .ok []
  | [_] => .error (.message "odd number of digits")
  | high :: low :: rest => do
    let high ← hexDigitValue high
    let low ← hexDigitValue low
    let rest ← hexDecode rest
    pure (UInt8.ofNat (high * 16 + low) :: rest)

/-- `deserialize_check_len` for a `U256`: `0x`, then from 1 to 64 digits. The last test
never fails after the length test; it gives the bound the type keeps. -/
def readU256 (value : Value) : Except Error U256 := do
  let text ← readString value
  match text.bytes with
  | 0x30 :: 0x78 :: numeral =>
    if numeral.length = 0 ∨ 64 < numeral.length then throw (.message "invalid length")
    else
      let number := bigEndian 16 (← numeral.mapM hexDigitValue)
      if fits : number < 2 ^ 256 then pure ⟨number, fits⟩ else throw (.message "invalid length")
  | _ => throw (.message "0x prefix is missing")

/-- `deserialize_check_len` for an `H160`: `0x`, then exactly 40 digits. -/
def readH160 (value : Value) : Except Error (FixedBytes 20) := do
  let text ← readString value
  match text.bytes with
  | 0x30 :: 0x78 :: encoded =>
    if encoded.length = 40 then
      match FixedBytes.fromSlice? (← hexDecode encoded) with
      | some address => pure address
      | none => throw (.message "invalid length")
    else throw (.message "invalid length")
  | _ => throw (.message "0x prefix is missing")

/-- `sha256d::Hash::from_hex`: exactly 64 digits, the last byte first. -/
def readSha256d (value : Value) : Except Error (FixedBytes 32) := do
  let text ← readString value
  if text.bytes.length = 64 then
    match FixedBytes.fromSlice? (← hexDecode text.bytes).reverse with
    | some hash => pure hash
    | none => throw (.message "invalid length")
  else throw (.message "invalid length")

/-! ## What the writers write -/

section Forms

theorem hexDigit_ascii : ∀ value, value < 16 → (hexDigit value).toNat < 128 := by decide

theorem hexDigitValue_hexDigit {value : Nat} (h : value < 16) : hexDigitValue (hexDigit value) = .ok value := by
  simp [hexDigitValue, hexValue_hexDigit value h]

theorem hexEncode_cons (byte : UInt8) (bytes : List UInt8) :
    hexEncode (byte :: bytes) = hexDigit (byte.toNat / 16) :: hexDigit (byte.toNat % 16) :: hexEncode bytes := rfl

@[simp] theorem length_hexEncode (bytes : List UInt8) : (hexEncode bytes).length = 2 * bytes.length := by
  induction bytes with
  | nil => rfl
  | cons byte bytes ih => simp [hexEncode_cons, ih]; omega

theorem hexEncode_ascii (bytes : List UInt8) : ∀ byte ∈ hexEncode bytes, byte.toNat < 128 := by
  simp only [hexEncode, List.mem_flatMap, List.mem_cons, List.not_mem_nil, or_false]
  rintro _ ⟨byte, -, rfl | rfl⟩ <;> have := byte.toNat_lt
  exacts [hexDigit_ascii _ (by omega), hexDigit_ascii _ (by omega)]

theorem hexDecode_hexEncode (bytes : List UInt8) : hexDecode (hexEncode bytes) = .ok bytes := by
  induction bytes with
  | nil => rfl
  | cons byte bytes ih =>
    have := byte.toNat_lt
    have value : byte.toNat / 16 * 16 + byte.toNat % 16 = byte.toNat := Nat.div_add_mod' _ _
    rw [hexEncode_cons, hexDecode, hexDigitValue_hexDigit (by omega), hexDigitValue_hexDigit (by omega), ih]
    simp [value]

theorem hexNumeral_ascii (value : Nat) : ∀ byte ∈ hexNumeral value, byte.toNat < 128 := by
  unfold hexNumeral
  split
  · decide
  · simp only [List.mem_map, List.mem_reverse]
    rintro _ ⟨digit, mem, rfl⟩
    exact hexDigit_ascii digit (Nat.digits_lt_base (by norm_num) mem)

theorem mapM_hexDigitValue {values : List Nat} (small : ∀ value ∈ values, value < 16) :
    (values.map hexDigit).mapM hexDigitValue = .ok values := by
  induction values with
  | nil => rfl
  | cons value values ih =>
    rw [List.map_cons, List.mapM_cons, hexDigitValue_hexDigit (small value (List.mem_cons_self _ _)),
      ih fun other mem => small other (List.mem_cons_of_mem _ mem)]
    rfl

/-- The digits of the numeral spell the number. -/
theorem mapM_hexNumeral (value : Nat) :
    ∃ values, (hexNumeral value).mapM hexDigitValue = .ok values ∧ bigEndian 16 values = value := by
  unfold hexNumeral
  split
  · exact ⟨[0], rfl, by simp_all [bigEndian]⟩
  · exact ⟨_, mapM_hexDigitValue fun digit mem => Nat.digits_lt_base (by norm_num) (List.mem_reverse.1 mem),
      bigEndian_reverse_digits value⟩

/-- A number below `2 ^ 256` has from 1 to 64 hexadecimal digits. -/
theorem length_hexNumeral {value : Nat} (fits : value < 2 ^ 256) :
    0 < (hexNumeral value).length ∧ (hexNumeral value).length ≤ 64 := by
  unfold hexNumeral
  split
  · simp
  · rename_i positive
    have log : Nat.log 16 value < 64 := Nat.log_lt_of_lt_pow positive (by simpa using fits)
    simp [Nat.digits_len 16 value (by norm_num) positive]
    omega

end Forms

/-! ## What the readers read back -/

section ReadBack

/-- A string of ASCII content reads back as that content. -/
theorem readString_ascii {content : List UInt8} (ascii : ∀ byte ∈ content, byte.toNat < 128) :
    readString (.string (escape content)) = .ok ⟨content, validUtf8_of_ascii ascii⟩ :=
  readKey_escape ⟨content, _⟩

theorem hexPrefix_ascii : ∀ byte ∈ hexPrefix, byte.toNat < 128 := by decide

theorem ascii_append {first second : List UInt8} (h : ∀ byte ∈ first, byte.toNat < 128)
    (h' : ∀ byte ∈ second, byte.toNat < 128) : ∀ byte ∈ first ++ second, byte.toNat < 128 := by
  simpa [or_imp, forall_and] using And.intro h h'

theorem readU256_u256Value (value : U256) : readU256 (u256Value value) = .ok value := by
  obtain ⟨nonempty, short⟩ := length_hexNumeral value.lt
  obtain ⟨values, digits, number⟩ := mapM_hexNumeral value.toNat
  have fits : bigEndian 16 values < 2 ^ 256 := number ▸ value.lt
  have length : ¬((hexNumeral value.toNat).length = 0 ∨ 64 < (hexNumeral value.toNat).length) := by omega
  rw [readU256, u256Value, readString_ascii (ascii_append hexPrefix_ascii (hexNumeral_ascii _))]
  simp only [Except.ok_bind, hexPrefix, List.cons_append, List.nil_append, if_neg length, digits, dif_pos fits]
  simp only [number]
  rfl

theorem readH160_h160Value (address : FixedBytes 20) : readH160 (h160Value address) = .ok address := by
  rw [readH160, h160Value, readString_ascii (ascii_append hexPrefix_ascii (hexEncode_ascii _))]
  simp [hexPrefix, hexDecode_hexEncode, address.length_eq]

theorem readSha256d_sha256dValue (hash : FixedBytes 32) : readSha256d (sha256dValue hash) = .ok hash := by
  rw [readSha256d, sha256dValue, readString_ascii (hexEncode_ascii _)]
  simp [hexDecode_hexEncode, hash.length_eq]

end ReadBack

end PtokensCore.SerdeJson

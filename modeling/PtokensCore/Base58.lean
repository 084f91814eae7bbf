import PtokensCore.Digits
import PtokensCore.Rust.Str

/-! Base58 text, as the crate's `base58` module reads and writes it.

`from` turns text into bytes and `encode_slice` bytes into text, with no checksum: each
leading `1` stands for a leading zero byte, and the rest of the text is the number the
remaining bytes spell in base 256, written in base 58. Both loops work one digit at a
time on a buffer of digits; the decoder sizes its buffer from the length of the text and
asserts that the number never outgrows it.
-/

set_option autoImplicit false

namespace PtokensCore.Base58

open Nat (digits ofDigits)

/-- `BASE58_CHARS`, the byte string
`b"123456789ABCDEFGHJKLMNPQRSTUVWXYZabcdefghijkmnopqrstuvwxyz"`. -/
def base58Chars : List UInt8 :=
  [0x31, 0x32, 0x33, 0x34, 0x35, 0x36, 0x37, 0x38, 0x39, 0x41, 0x42, 0x43, 0x44, 0x45, 0x46, 0x47,
   0x48, 0x4a, 0x4b, 0x4c, 0x4d, 0x4e, 0x50, 0x51, 0x52, 0x53, 0x54, 0x55, 0x56, 0x57, 0x58, 0x59,
   0x5a, 0x61, 0x62, 0x63, 0x64, 0x65, 0x66, 0x67, 0x68, 0x69, 0x6a, 0x6b, 0x6d, 0x6e, 0x6f, 0x70,
   0x71, 0x72, 0x73, 0x74, 0x75, 0x76, 0x77, 0x78, 0x79, 0x7a]

/-- `BASE58_CHARS[digit]`. -/
def base58Byte (digit : Nat) : UInt8 := base58Chars.getD digit 0

/-- `BASE58_DIGITS[byte]` for a byte below 128: the table inverts `BASE58_CHARS`. -/
def base58Digit (byte : UInt8) : Option Nat := base58Chars.indexOf? byte

inductive Error where
  | badByte (byte : UInt8)
  deriving DecidableEq, Repr

/-! ## The decoder and the encoder -/

/-- The inner loop of `from`: the buffer (most significant byte first) times 58 plus `carry`,
walked from its last byte as `iter_mut().rev()` walks it, each byte cut to `u8`; with the
carry left over above the first byte. -/
def mulAdd58 : List Nat → Nat → List Nat × Nat
  | [], carry => ([], carry)
  | d256 :: rest, carry =>
    let lower := mulAdd58 rest carry
    ((lower.2 + d256 * 58) % 256 :: lower.1, (lower.2 + d256 * 58) / 256)

/-- The outer loop of `from`, one byte of the text at a time. The bound check reads
`d58 as usize > BASE58_DIGITS.len()`, so the byte 128 reaches the table and indexes past it. -/
def decodeLoop : List Nat → List UInt8 → Except (Fault Error) (List Nat)
  | scratch, [] => .ok scratch
  | scratch, d58 :: rest =>
    if d58.toNat > 128 then .error (.error (.badByte d58))
    else if d58.toNat = 128 then .error (.panic (indexOutOfBounds 128 128))
    else
      match base58Digit d58 with
      | none => .error (.error (.badByte d58))
      | some digit =>
        if (mulAdd58 scratch digit).2 = 0 then decodeLoop (mulAdd58 scratch digit).1 rest
        else .error (.panic "assertion failed: `(left == right)`")

/-- `base58::from`, imported by `btc_utils.rs` as `from_base58`.
Modelled from the spec: `base58.rs` is not among the sources. The spec calls the address
codec a checksummed base-N encoding; the tests of `btc_utils.rs` show that `from` returns
all 25 bytes of an address, its checksum included, so this is the plain base-58 decoder
(as in the `bitcoin` crate's `base58::from`), which checks no checksum. -/
def fromBase58 (data : String) : Except (Fault Error) (List UInt8) := do
  let bytes := utf8Bytes data
  let scratch ← decodeLoop (List.replicate (1 + bytes.length * 11 / 15) 0) bytes
  let leading := (bytes.takeWhile (· == base58Byte 0)).map fun _ => (0 : UInt8)
  pure (leading ++ (scratch.dropWhile (· == 0)).map UInt8.ofNat)

/-- The inner loop of `encode_slice`: the digits (least significant first) times 256 plus
`carry`, with the carry left over above the last digit. -/
def mulAdd256 : List Nat → Nat → List Nat × Nat
  | [], carry => ([], carry)
  | ch :: rest, carry =>
    let higher := mulAdd256 rest ((ch * 256 + carry) / 58)
    ((ch * 256 + carry) % 58 :: higher.1, higher.2)

/-- `while carry > 0 { ret.push((carry % 58) as u8); carry /= 58; }` -/
def pushCarry (carry : Nat) : List Nat :=
  if carry > 0 then carry % 58 :: pushCarry (carry / 58) else []
termination_by carry
decreasing_by omega

/-- The state of the loop of `encode_slice` between two bytes. -/
structure EncodeState where
  ret : List Nat
  leadingZeroCount : Nat
  leadingZeroes : Bool

def encodeStep (state : EncodeState) (d256 : UInt8) : EncodeState :=
  let carry := mulAdd256 state.ret d256.toNat
  { ret := carry.1 ++ pushCarry carry.2
    leadingZeroCount := if state.leadingZeroes && d256.toNat == 0 then state.leadingZeroCount + 1
      else state.leadingZeroCount
    leadingZeroes := state.leadingZeroes && d256.toNat == 0 }

/-- `base58::encode_slice`, imported by `btc_utils.rs` as `base58_encode_slice`.
Modelled from the spec, as `fromBase58` is: the encoder of the same module. The digits are
below 58, so `BASE58_CHARS[ch]` stays in bounds. -/
def base58EncodeSlice (data : List UInt8) : String :=
  let state := data.foldl encodeStep ⟨[], 0, true⟩
  asciiString ((state.ret ++ List.replicate state.leadingZeroCount 0).reverse.map base58Byte)

theorem base58Chars_increasing : (base58Chars.map UInt8.toNat).Chain' (· < ·) := by simp [base58Chars]

theorem base58Chars_ascii : ∀ byte ∈ base58Chars, byte.toNat < 128 := by decide

@[simp] theorem length_base58Chars : base58Chars.length = 58 := rfl

theorem base58Byte_eq_getElem {digit : Nat} (lt : digit < 58) : base58Byte digit = base58Chars[digit] := by
  simp [base58Byte, List.getElem?_eq_getElem (show digit < base58Chars.length from lt)]

theorem base58Byte_ascii {digit : Nat} (lt : digit < 58) : (base58Byte digit).toNat < 128 := by
  rw [base58Byte_eq_getElem lt]
  exact base58Chars_ascii _ (List.getElem_mem _)

theorem base58Digit_eq_some {byte : UInt8} {digit : Nat} (h : base58Digit byte = some digit) :
    digit < 58 ∧ base58Byte digit = byte := by
  obtain ⟨lt, eq, -⟩ := List.findIdx?_eq_some_iff_getElem.mp h
  exact ⟨lt, by simpa [base58Byte_eq_getElem lt] using eq⟩

theorem base58Digit_base58Byte {digit : Nat} (lt : digit < 58) : base58Digit (base58Byte digit) = some digit := by
  have sorted := List.pairwise_iff_getElem.mp (List.chain'_iff_pairwise.mp base58Chars_increasing)
  refine List.findIdx?_eq_some_iff_getElem.mpr ⟨lt, by simp [base58Byte_eq_getElem lt], fun j before => ?_⟩
  have := sorted j digit (by simp; omega) (by simpa using lt) before
  simp only [List.getElem_map] at this
  simp [base58Byte_eq_getElem lt, UInt8.eq_iff_toNat]
  omega

theorem base58Byte_injective {digit other : Nat} (lt : digit < 58) (otherLt : other < 58)
    (same : base58Byte digit = base58Byte other) : digit = other := by
  simpa [base58Digit_base58Byte lt, base58Digit_base58Byte otherLt] using congrArg base58Digit same

/-! ## What `from` computes -/

@[simp] theorem length_mulAdd58 (scratch : List Nat) (carry : Nat) :
    (mulAdd58 scratch carry).1.length = scratch.length := by
  induction scratch with
  | nil => rfl
  | cons d rest ih => simp [mulAdd58, ih]

theorem mulAdd58_lt (scratch : List Nat) (carry : Nat) : ∀ x ∈ (mulAdd58 scratch carry).1, x < 256 := by
  induction scratch with
  | nil => simp [mulAdd58]
  | cons d rest ih =>
    simp only [mulAdd58, List.mem_cons]
    rintro x (rfl | mem)
    exacts [Nat.mod_lt _ (by norm_num), ih x mem]

theorem mulAdd58_value (scratch : List Nat) (carry : Nat) :
    bigEndian 256 (mulAdd58 scratch carry).1 + 256 ^ scratch.length * (mulAdd58 scratch carry).2 =
      bigEndian 256 scratch * 58 + carry := by
  induction scratch with
  | nil => simp [mulAdd58]
  | cons d rest ih =>
    simp only [mulAdd58, bigEndian_cons, length_mulAdd58, List.length_cons]
    generalize mulAdd58 rest carry = lower at ih ⊢
    have split := Nat.mod_add_div (lower.2 + d * 58) 256
    calc bigEndian 256 lower.1 + 256 ^ rest.length * ((lower.2 + d * 58) % 256) +
          256 ^ (rest.length + 1) * ((lower.2 + d * 58) / 256)
        = bigEndian 256 lower.1 + 256 ^ rest.length * ((lower.2 + d * 58) % 256 + 256 * ((lower.2 + d * 58) / 256)) := by
          ring
      _ = (bigEndian 256 lower.1 + 256 ^ rest.length * lower.2) + 256 ^ rest.length * d * 58 := by rw [split]; ring
      _ = (bigEndian 256 rest + 256 ^ rest.length * d) * 58 + carry := by rw [ih]; ring

theorem mulAdd58_of_lt {scratch : List Nat} {digit : Nat}
    (fits : bigEndian 256 scratch * 58 + digit < 256 ^ scratch.length) :
    (mulAdd58 scratch digit).2 = 0 ∧ bigEndian 256 (mulAdd58 scratch digit).1 = bigEndian 256 scratch * 58 + digit := by
  have value := mulAdd58_value scratch digit
  have : (mulAdd58 scratch digit).2 = 0 := by
    by_contra nonzero
    have : 256 ^ scratch.length ≤ 256 ^ scratch.length * (mulAdd58 scratch digit).2 :=
      Nat.le_mul_of_pos_right _ (Nat.pos_of_ne_zero nonzero)
    omega
  exact ⟨this, by simpa [this] using value⟩

theorem decodeLoop_cons_base58Byte (scratch : List Nat) (rest : List UInt8) {digit : Nat} (lt : digit < 58) :
    decodeLoop scratch (base58Byte digit :: rest) =
      if (mulAdd58 scratch digit).2 = 0 then decodeLoop (mulAdd58 scratch digit).1 rest
      else .error (.panic "assertion failed: `(left == right)`") := by
  have ascii := base58Byte_ascii lt
  rw [decodeLoop, if_neg (by omega), if_neg (by omega), base58Digit_base58Byte lt]

theorem decodeLoop_digits (digits : List Nat) (small : ∀ d ∈ digits, d < 58) (scratch : List Nat)
    (bytes : ∀ x ∈ scratch, x < 256)
    (fits : bigEndian 256 scratch * 58 ^ digits.length + bigEndian 58 digits < 256 ^ scratch.length) :
    ∃ out, decodeLoop scratch (digits.map base58Byte) = .ok out ∧ out.length = scratch.length ∧
      (∀ x ∈ out, x < 256) ∧ bigEndian 256 out = bigEndian 256 scratch * 58 ^ digits.length + bigEndian 58 digits := by
  induction digits generalizing scratch with
  | nil => exact ⟨scratch, rfl, rfl, bytes, by simp⟩
  | cons d rest ih =>
    have lt := small d (List.mem_cons_self _ _)
    rw [bigEndian_cons, List.length_cons, pow_succ] at fits
    have step : bigEndian 256 scratch * 58 + d < 256 ^ scratch.length :=
      calc bigEndian 256 scratch * 58 + d
          ≤ (bigEndian 256 scratch * 58 + d) * 58 ^ rest.length := Nat.le_mul_of_pos_right _ (by positivity)
        _ = bigEndian 256 scratch * (58 ^ rest.length * 58) + 58 ^ rest.length * d := by ring
        _ ≤ bigEndian 256 scratch * (58 ^ rest.length * 58) + (bigEndian 58 rest + 58 ^ rest.length * d) :=
          Nat.add_le_add_left (Nat.le_add_left _ _) _
        _ < 256 ^ scratch.length := fits
    obtain ⟨carry, value⟩ := mulAdd58_of_lt step
    obtain ⟨out, run, length, lt256, outValue⟩ := ih (fun x mem => small x (List.mem_cons_of_mem _ mem))
      (mulAdd58 scratch d).1 (mulAdd58_lt _ _) (by rw [value, length_mulAdd58]; linarith)
    refine ⟨out, ?_, by rw [length, length_mulAdd58], lt256, ?_⟩
    · rw [List.map_cons, decodeLoop_cons_base58Byte _ _ lt, if_pos carry, run]
    · rw [outValue, value, bigEndian_cons, List.length_cons, pow_succ]; ring

theorem decodeLoop_ok_digits {scratch : List Nat} {bytes : List UInt8} {out : List Nat}
    (ok : decodeLoop scratch bytes = .ok out) : ∃ digits : List Nat, (∀ d ∈ digits, d < 58) ∧ bytes = digits.map base58Byte := by
  induction bytes generalizing scratch with
  | nil => exact ⟨[], by simp, rfl⟩
  | cons byte rest ih =>
    rw [decodeLoop] at ok
    split_ifs at ok
    split at ok
    · cases ok
    · rename_i digit found
      split_ifs at ok
      obtain ⟨digits, small, rfl⟩ := ih ok
      obtain ⟨lt, rfl⟩ := base58Digit_eq_some found
      exact ⟨digit :: digits, by simpa [lt] using small, rfl⟩

/-- `11/15 is just over log_256(58)`: the buffer always holds the number the text spells. -/
theorem pow_58_le_scratch (length : Nat) : 58 ^ length ≤ 256 ^ (1 + length * 11 / 15) := by
  obtain ⟨q, r, hr, rfl⟩ : ∃ q r, r < 15 ∧ length = 15 * q + r :=
    ⟨length / 15, length % 15, Nat.mod_lt _ (by norm_num), (Nat.div_add_mod length 15).symm⟩
  have small : ∀ r < 15, 58 ^ r ≤ 256 ^ (1 + r * 11 / 15) := by decide
  calc 58 ^ (15 * q + r) = (58 ^ 15) ^ q * 58 ^ r := by rw [pow_add, pow_mul]
    _ ≤ (256 ^ 11) ^ q * 256 ^ (1 + r * 11 / 15) := Nat.mul_le_mul (Nat.pow_le_pow_left (by norm_num) q) (small r hr)
    _ = 256 ^ (1 + (15 * q + r) * 11 / 15) := by
      rw [← pow_mul, ← pow_add]; congr 1; omega

theorem leading_base58Byte {digits : List Nat} (small : ∀ d ∈ digits, d < 58) :
    ((digits.map base58Byte).takeWhile (· == base58Byte 0)).map (fun _ => (0 : UInt8)) =
      List.replicate (leadingZeros digits) 0 := by
  induction digits with
  | nil => rfl
  | cons d rest ih =>
    have tail := ih fun x mem => small x (List.mem_cons_of_mem _ mem)
    by_cases zero : d = 0
    · subst zero
      simpa [leadingZeros_cons_zero, List.replicate_succ] using tail
    · have : base58Byte d ≠ base58Byte 0 :=
        fun same => zero (base58Byte_injective (small d (List.mem_cons_self _ _)) (by norm_num) same)
      simp [leadingZeros, zero, this]

theorem fromBase58_digits (digits : List Nat) (small : ∀ d ∈ digits, d < 58) :
    fromBase58 (asciiString (digits.map base58Byte)) =
      .ok (List.replicate (leadingZeros digits) 0 ++ (Nat.digits 256 (bigEndian 58 digits)).reverse.map UInt8.ofNat) := by
  have ascii : ∀ byte ∈ digits.map base58Byte, byte.toNat < 128 := by
    simpa using fun d mem => base58Byte_ascii (small d mem)
  have fits : bigEndian 256 (List.replicate (1 + digits.length * 11 / 15) 0) * 58 ^ digits.length +
      bigEndian 58 digits < 256 ^ (List.replicate (1 + digits.length * 11 / 15) 0).length := by
    simpa [bigEndian_replicate] using lt_of_lt_of_le (bigEndian_lt (by norm_num) small) (pow_58_le_scratch digits.length)
  obtain ⟨out, run, -, lt256, value⟩ := decodeLoop_digits digits small _ (by simp) fits
  rw [eq_replicate_append_digits (by norm_num) lt256, value, bigEndian_replicate, zero_mul, zero_add] at run
  simp only [fromBase58, utf8Bytes_asciiString ascii, List.length_map, run, leading_base58Byte small,
    dropWhile_replicate_append _ (reverse_digits_ne_zero _), Except.ok_bind, Except.pure_eq_ok]

theorem fromBase58_ok_digits {text : String} {data : List UInt8} (decoded : fromBase58 text = .ok data) :
    ∃ digits : List Nat, (∀ d ∈ digits, d < 58) ∧ text = asciiString (digits.map base58Byte) := by
  cases run : decodeLoop (List.replicate (1 + (utf8Bytes text).length * 11 / 15) 0) (utf8Bytes text) with
  | error fault => simp [fromBase58, run] at decoded
  | ok scratch =>
    obtain ⟨digits, small, eq⟩ := decodeLoop_ok_digits run
    exact ⟨digits, small, eq_asciiString (by simpa using fun d mem => base58Byte_ascii (small d mem)) eq⟩

/-! ## What `encode_slice` computes -/

theorem pushCarry_eq_digits (carry : Nat) : pushCarry carry = Nat.digits 58 carry := by
  induction carry using Nat.strong_induction_on with
  | _ carry ih =>
    rw [pushCarry]
    split_ifs with pos
    · rw [ih _ (Nat.div_lt_self pos (by norm_num)), Nat.digits_def' (by norm_num) pos]
    · simp [show carry = 0 by omega]

theorem mulAdd256_digits (value carry : Nat) :
    (mulAdd256 (Nat.digits 58 value) carry).1 ++ pushCarry (mulAdd256 (Nat.digits 58 value) carry).2 =
      Nat.digits 58 (value * 256 + carry) := by
  induction value using Nat.strong_induction_on generalizing carry with
  | _ value ih =>
    rcases Nat.eq_zero_or_pos value with rfl | pos
    · simp [mulAdd256, pushCarry_eq_digits]
    · rw [Nat.digits_def' (by norm_num) pos, mulAdd256, List.cons_append, ih _ (Nat.div_lt_self pos (by norm_num)),
        Nat.digits_def' (by norm_num) (by omega : 0 < value * 256 + carry)]
      have low : (value % 58 * 256 + carry) % 58 = (value * 256 + carry) % 58 := by omega
      have high : value / 58 * 256 + (value % 58 * 256 + carry) / 58 = (value * 256 + carry) / 58 := by omega
      rw [low, high]

theorem foldl_encodeStep (data : List UInt8) (value count : Nat) (zeroes : Bool) :
    data.foldl encodeStep ⟨Nat.digits 58 value, count, zeroes⟩ =
      ⟨Nat.digits 58 (value * 256 ^ data.length + bigEndian 256 (data.map UInt8.toNat)),
        if zeroes then count + leadingZeros (data.map UInt8.toNat) else count,
        zeroes && data.all (·.toNat == 0)⟩ := by
  induction data generalizing value count zeroes with
  | nil => simp [leadingZeros]
  | cons byte rest ih =>
    rw [List.foldl_cons, encodeStep]
    simp only [mulAdd256_digits]
    rw [ih]
    congr 1
    · congr 1
      simp only [List.map_cons, bigEndian_cons, List.length_map, List.length_cons, pow_succ]
      ring
    · cases zeroes
      · simp
      · by_cases zero : byte.toNat = 0
        · simp [zero, leadingZeros]; omega
        · simp [zero, leadingZeros]
    · simp [Bool.and_assoc]

theorem base58EncodeSlice_eq (data : List UInt8) :
    base58EncodeSlice data = asciiString ((List.replicate (leadingZeros (data.map UInt8.toNat)) 0 ++
      (Nat.digits 58 (bigEndian 256 (data.map UInt8.toNat))).reverse).map base58Byte) := by
  have := foldl_encodeStep data 0 0 true
  simp only [Nat.digits_zero, zero_mul, zero_add, if_true, Bool.true_and] at this
  simp [base58EncodeSlice, this, List.reverse_append]

/-! ## Round trips -/

theorem map_toNat_lt (data : List UInt8) : ∀ d ∈ data.map UInt8.toNat, d < 256 := by
  simpa using fun byte _ => byte.toNat_lt

theorem replicate_append_digits_lt (count value : Nat) {base : Nat} (hb : 1 < base) :
    ∀ d ∈ List.replicate count 0 ++ (Nat.digits base value).reverse, d < base := by
  simp only [List.mem_append, List.mem_replicate, List.mem_reverse]
  rintro d (⟨-, rfl⟩ | mem)
  exacts [by omega, Nat.digits_lt_base hb mem]

theorem map_toNat_map_ofNat {digits : List Nat} (small : ∀ d ∈ digits, d < 256) :
    (digits.map UInt8.ofNat).map UInt8.toNat = digits := by
  induction digits with
  | nil => rfl
  | cons d rest ih => simp_all [Nat.mod_eq_of_lt]

/-- Decoding what `encode_slice` wrote gives back the bytes. -/
theorem fromBase58_base58EncodeSlice (data : List UInt8) : fromBase58 (base58EncodeSlice data) = .ok data := by
  rw [base58EncodeSlice_eq, fromBase58_digits _ (replicate_append_digits_lt _ _ (by norm_num)),
    leadingZeros_replicate_append _ (reverse_digits_ne_zero _), bigEndian_replicate_append, bigEndian_reverse_digits]
  congr 1
  calc _ = (List.replicate (leadingZeros (data.map UInt8.toNat)) 0 ++
        (Nat.digits 256 (bigEndian 256 (data.map UInt8.toNat))).reverse).map UInt8.ofNat := by simp
    _ = (data.map UInt8.toNat).map UInt8.ofNat := by rw [← eq_replicate_append_digits (by norm_num) (map_toNat_lt data)]
    _ = data := by simp [Function.comp_def]

/-- Encoding the bytes of a text that `from` accepts gives back the text. -/
theorem base58EncodeSlice_fromBase58 {text : String} {data : List UInt8} (decoded : fromBase58 text = .ok data) :
    base58EncodeSlice data = text := by
  obtain ⟨digits, small, rfl⟩ := fromBase58_ok_digits decoded
  rw [fromBase58_digits digits small] at decoded
  cases decoded
  have bytes : (List.replicate (leadingZeros digits) 0 ++
      (Nat.digits 256 (bigEndian 58 digits)).reverse.map UInt8.ofNat).map UInt8.toNat =
        List.replicate (leadingZeros digits) 0 ++ (Nat.digits 256 (bigEndian 58 digits)).reverse := by
    rw [List.map_append, map_toNat_map_ofNat fun d mem => Nat.digits_lt_base (by norm_num) (List.mem_reverse.mp mem)]
    simp
  rw [base58EncodeSlice_eq, bytes, leadingZeros_replicate_append _ (reverse_digits_ne_zero _), bigEndian_replicate_append,
    bigEndian_reverse_digits, ← eq_replicate_append_digits (by norm_num) small]

theorem leadingZeros_map_toNat (data : List UInt8) :
    leadingZeros (data.map UInt8.toNat) = (data.takeWhile (· == 0)).length := by
  induction data with
  | nil => rfl
  | cons byte rest ih =>
    by_cases zero : byte = 0
    · subst zero
      simpa [leadingZeros] using ih
    · have : byte.toNat ≠ 0 := fun same => zero (UInt8.eq_iff_toNat.mpr same)
      simp [leadingZeros, zero, this]

theorem char_base58Byte_eq_one {digit : Nat} (lt : digit < 58) :
    Char.ofNat (base58Byte digit).toNat = '1' ↔ digit = 0 := by
  constructor
  · intro same
    have := congrArg Char.toNat same
    rw [toNat_ofNat_char (base58Byte_ascii lt)] at this
    exact base58Byte_injective lt (by norm_num) (UInt8.eq_iff_toNat.mpr this)
  · rintro rfl; rfl

theorem base58EncodeSlice_leading (data : List UInt8) :
    ((base58EncodeSlice data).data.takeWhile (· == '1')).length = (data.takeWhile (· == 0)).length := by
  have : ((Nat.digits 58 (bigEndian 256 (data.map UInt8.toNat))).reverse.map
      fun d => Char.ofNat (base58Byte d).toNat).head? ≠ some '1' := by
    have := @reverse_digits_ne_zero 58 (bigEndian 256 (data.map UInt8.toNat))
    cases digits : (Nat.digits 58 (bigEndian 256 (data.map UInt8.toNat))).reverse with
    | nil => simp
    | cons d rest =>
      have lt : d < 58 := Nat.digits_lt_base (by norm_num) (List.mem_reverse.mp (digits ▸ List.mem_cons_self _ _))
      simpa [digits, char_base58Byte_eq_one lt] using this
  have ones : (List.replicate (leadingZeros (data.map UInt8.toNat)) 0).map
      (fun d => Char.ofNat (base58Byte d).toNat) = List.replicate (leadingZeros (data.map UInt8.toNat)) '1' := by
    simp [(char_base58Byte_eq_one (by norm_num : 0 < 58)).mpr rfl]
  simp only [base58EncodeSlice_eq, asciiString, List.map_map, Function.comp_def, List.map_append, ones]
  rw [takeWhile_replicate_append _ _ this, List.length_replicate, leadingZeros_map_toNat]

/-- The byte 128 only ever follows the first byte of a character above 127, which the loop
rejects first; and the assertion holds while the number fits. -/
theorem decodeLoop_utf8_ne_panic (chars : List Char) (scratch : List Nat) (bytes : ∀ x ∈ scratch, x < 256)
    (fits : (bigEndian 256 scratch + 1) * 58 ^ (chars.flatMap String.utf8EncodeChar).length ≤ 256 ^ scratch.length)
    (message : String) : decodeLoop scratch (chars.flatMap String.utf8EncodeChar) ≠ .error (.panic message) := by
  induction chars generalizing scratch with
  | nil => simp [decodeLoop]
  | cons c rest ih =>
    rw [List.flatMap_cons] at fits ⊢
    by_cases ascii : c.toNat < 128
    · rw [utf8EncodeChar_of_ascii c ascii, List.singleton_append] at fits ⊢
      have small : (UInt8.ofNat c.toNat).toNat < 128 := by
        rwa [UInt8.toNat_ofNat', Nat.mod_eq_of_lt (by omega)]
      rw [decodeLoop, if_neg (by omega), if_neg (by omega)]
      split
      · simp
      · rename_i digit found
        have lt := (base58Digit_eq_some found).1
        rw [List.length_cons, pow_succ] at fits
        have next : (bigEndian 256 scratch * 58 + digit + 1) * 58 ^ (rest.flatMap String.utf8EncodeChar).length ≤
            256 ^ scratch.length :=
          calc (bigEndian 256 scratch * 58 + digit + 1) * 58 ^ (rest.flatMap String.utf8EncodeChar).length
              ≤ (bigEndian 256 scratch + 1) * 58 * 58 ^ (rest.flatMap String.utf8EncodeChar).length :=
                Nat.mul_le_mul_right _ (by omega)
            _ = (bigEndian 256 scratch + 1) * (58 ^ (rest.flatMap String.utf8EncodeChar).length * 58) := by ring
            _ ≤ 256 ^ scratch.length := fits
        have now : bigEndian 256 scratch * 58 + digit < 256 ^ scratch.length :=
          Nat.lt_of_lt_of_le (Nat.lt_succ_self _) (le_trans (Nat.le_mul_of_pos_right _ (by positivity)) next)
        obtain ⟨carry, value⟩ := mulAdd58_of_lt now
        rw [if_pos carry]
        exact ih _ (mulAdd58_lt _ _) (by rwa [value, length_mulAdd58])
    · obtain ⟨head, tail, eq, big⟩ := utf8EncodeChar_of_not_ascii c ascii
      rw [eq, List.cons_append, decodeLoop, if_pos (by omega)]
      simp

/-- `from` returns `Ok` or `Err` on every text: it never aborts. -/
theorem fromBase58_ne_panic (text message : String) : fromBase58 text ≠ .error (.panic message) := by
  have never : decodeLoop (List.replicate (1 + (utf8Bytes text).length * 11 / 15) 0) (utf8Bytes text) ≠
      .error (.panic message) :=
    decodeLoop_utf8_ne_panic text.data _ (by simp)
      (by rw [bigEndian_replicate, List.length_replicate, zero_add, one_mul]; exact pow_58_le_scratch _) message
  cases run : decodeLoop (List.replicate (1 + (utf8Bytes text).length * 11 / 15) 0) (utf8Bytes text) with
  | error fault =>
    simp only [fromBase58, run, Except.error_bind]
    rintro ⟨⟩
    exact never run
  | ok scratch => simp [fromBase58, run]

/-- A text with a character outside `BASE58_CHARS` is refused with an `Err`. -/
theorem fromBase58_error_of_not_mem {text : String} {c : Char} (mem : c ∈ text.data)
    (outside : c.toNat ∉ base58Chars.map UInt8.toNat) : ∃ error, fromBase58 text = .error (.error error) := by
  cases decoded : fromBase58 text with
  | ok data =>
    obtain ⟨digits, small, rfl⟩ := fromBase58_ok_digits decoded
    simp only [asciiString, List.map_map, List.mem_map, Function.comp] at mem
    obtain ⟨d, listed, rfl⟩ := mem
    have lt := small d listed
    rw [toNat_ofNat_char (base58Byte_ascii lt), base58Byte_eq_getElem lt] at outside
    exact absurd (List.mem_map_of_mem _ (List.getElem_mem _)) outside
  | error fault =>
    cases fault with
    | error error => exact ⟨error, rfl⟩
    | panic message => exact absurd decoded (fromBase58_ne_panic text message)

end PtokensCore.Base58

import PtokensCore.Rust.Basic

/-! Rust text as bytes.

A Rust `String` is a vector of bytes that is well-formed UTF-8, and `str::bytes` reads it
back as those bytes. The model keeps strings as their bytes and checks the UTF-8 rule
where the code converts bytes into a `String`; ASCII text, one byte per character, is
the one case that is ever converted to a Lean string.
-/

set_option autoImplicit false

namespace PtokensCore

/-- `str::bytes`: the UTF-8 encoding of the text. -/
def utf8Bytes (text : String) : List UInt8 := text.data.flatMap String.utf8EncodeChar

/-- `String::from_utf8(bytes).unwrap()` on bytes below 128, each of which is one character. -/
def asciiString (bytes : List UInt8) : String := ⟨bytes.map fun byte => Char.ofNat byte.toNat⟩

theorem toNat_ofNat_char {n : Nat} (h : n < 128) : (Char.ofNat n).toNat = n := by
  rw [Char.ofNat, dif_pos (Or.inl (by omega))]
  rfl

theorem utf8EncodeChar_of_ascii (c : Char) (h : c.toNat < 128) : String.utf8EncodeChar c = [UInt8.ofNat c.toNat] := by
  have : c.val ≤ 0x7f := Nat.le_of_lt_succ h
  simp [String.utf8EncodeChar, this]
  rfl

theorem toNat_le_toNat_or (a b : UInt8) : b.toNat ≤ (a ||| b).toNat := by
  show b.toNat ≤ (a.toBitVec ||| b.toBitVec).toNat
  rw [BitVec.toNat_or]
  exact Nat.le_of_testBit fun _ set => by simp [UInt8.toNat] at set ⊢; exact Or.inr set

theorem utf8EncodeChar_of_not_ascii (c : Char) (h : ¬ c.toNat < 128) :
    ∃ head tail, String.utf8EncodeChar c = head :: tail ∧ 0xc0 ≤ head.toNat := by
  have : ¬ c.val ≤ 0x7f := fun le => h (Nat.lt_succ_of_le le)
  unfold String.utf8EncodeChar
  simp only [this, if_false]
  split_ifs <;> exact ⟨_, _, rfl, le_trans (by decide) (toNat_le_toNat_or _ _)⟩

theorem utf8Bytes_asciiString {bytes : List UInt8} (ascii : ∀ byte ∈ bytes, byte.toNat < 128) :
    utf8Bytes (asciiString bytes) = bytes := by
  induction bytes with
  | nil => rfl
  | cons byte rest ih =>
    have small := ascii byte (List.mem_cons_self _ _)
    have tail := ih fun other mem => ascii other (List.mem_cons_of_mem _ mem)
    simp only [utf8Bytes, asciiString, List.map_cons, List.flatMap_cons] at tail ⊢
    rw [utf8EncodeChar_of_ascii _ (by rwa [toNat_ofNat_char small]), toNat_ofNat_char small, tail]
    simp

/-- Bytes below 128 are the UTF-8 encoding of one text only. -/
theorem eq_asciiString {text : String} {bytes : List UInt8} (ascii : ∀ byte ∈ bytes, byte.toNat < 128)
    (encoded : utf8Bytes text = bytes) : text = asciiString bytes := by
  obtain ⟨chars⟩ := text
  induction chars generalizing bytes with
  | nil => subst encoded; rfl
  | cons c rest ih =>
    simp only [utf8Bytes, List.flatMap_cons] at encoded
    by_cases small : c.toNat < 128
    · rw [utf8EncodeChar_of_ascii c small] at encoded
      subst encoded
      have rest_eq : rest = (rest.flatMap String.utf8EncodeChar).map fun byte => Char.ofNat byte.toNat :=
        congrArg String.data (ih (fun other mem => ascii other (List.mem_cons_of_mem _ mem)) rfl)
      simp only [asciiString, List.singleton_append, List.map_cons, ← rest_eq, UInt8.toNat_ofNat',
        Nat.mod_eq_of_lt (lt_trans small (by norm_num : 128 < 256)), Char.ofNat_toNat]
    · obtain ⟨head, tail, eq, big⟩ := utf8EncodeChar_of_not_ascii c small
      rw [eq] at encoded
      have := ascii head (encoded ▸ List.mem_cons_self _ _)
      omega

/-! ## Well-formed UTF-8 -/

/-- The range of the byte after the first byte `first` of a sequence (Unicode, Table 3-7). -/
def secondByteRange (first : Nat) : Nat × Nat :=
  if first = 0xe0 then (0xa0, 0xbf) else if first = 0xed then (0x80, 0x9f)
  else if first = 0xf0 then (0x90, 0xbf) else if first = 0xf4 then (0x80, 0x8f) else (0x80, 0xbf)

def inRange (byte : UInt8) (range : Nat × Nat) : Bool := range.1 ≤ byte.toNat && byte.toNat ≤ range.2

/-- How many bytes the sequence a first byte starts has, or 0 for a byte no sequence starts with. -/
def utf8Width (first : Nat) : Nat :=
  if first < 0x80 then 1 else if first < 0xc2 then 0 else if first < 0xe0 then 2
  else if first < 0xf0 then 3 else if first < 0xf5 then 4 else 0

/-- `str::from_utf8` succeeds: every sequence is complete, shortest and below U+110000, and
none encodes a surrogate. -/
def validUtf8 : List UInt8 → Bool
  | [] => true
  | first :: rest =>
    match utf8Width first.toNat, rest with
    | 1, rest => validUtf8 rest
    | 2, second :: rest => inRange second (secondByteRange first.toNat) && validUtf8 rest
    | 3, second :: third :: rest =>
      inRange second (secondByteRange first.toNat) && inRange third (0x80, 0xbf) && validUtf8 rest
    | 4, second :: third :: fourth :: rest =>
      inRange second (secondByteRange first.toNat) && inRange third (0x80, 0xbf) &&
        inRange fourth (0x80, 0xbf) && validUtf8 rest
    | _, _ => false

/-- A Rust `String`: its bytes, which are well-formed UTF-8. -/
structure RustString where
  bytes : List UInt8
  valid : validUtf8 bytes = true
  deriving DecidableEq

theorem validUtf8_of_ascii {bytes : List UInt8} (ascii : ∀ byte ∈ bytes, byte.toNat < 128) :
    validUtf8 bytes = true := by
  induction bytes with
  | nil => rfl
  | cons byte rest ih =>
    have width : utf8Width byte.toNat = 1 := by simp [utf8Width, ascii byte (List.mem_cons_self _ _)]
    simp only [validUtf8, width]
    exact ih fun other mem => ascii other (List.mem_cons_of_mem _ mem)

end PtokensCore

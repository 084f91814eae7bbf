import PtokensCore.Digits
import PtokensCore.SerdeJson.Syntax

/-! What the compact writer writes, the scan reads back.

`Written` says which values this crate's writers produce: numbers in decimal, strings and
keys escaped from their content. For those, the scan of the text followed by a byte that may
close a value gives the value back (`scanValue_write`), and `unescape` undoes `escape`. The
proof is one induction on the fuel carrying values, items and members together, each case
given the level below.
-/

set_option autoImplicit false

namespace PtokensCore.SerdeJson

/-! ## Escapes -/

section Escapes

@[simp] theorem prepend_ok (bytes token rest : List UInt8) :
    prepend bytes (.ok (token, rest)) = .ok (bytes ++ token, rest) := rfl

theorem prepend_prepend (first second : List UInt8) (read : Except Error (List UInt8 × List UInt8)) :
    prepend first (prepend second read) = prepend (first ++ second) read := by
  cases read <;> simp [prepend, Except.map]

theorem hexValue_hexDigit : ∀ value, value < 16 → hexValue (hexDigit value) = some value := by
  decide

/-- The four digits of a `\u00XX` escape. -/
theorem hex4_control {high low : Nat} (h : high < 16) (l : low < 16) :
    hex4 0x30 0x30 (hexDigit high) (hexDigit low) = some (high * 16 + low) := by
  simp [hex4, hexValue_hexDigit high h, hexValue_hexDigit low l, show hexValue 0x30 = some 0 from rfl]

@[simp] theorem escape_nil : escape [] = [] := rfl

@[simp] theorem escape_cons (byte : UInt8) (content : List UInt8) :
    escape (byte :: content) = escapeByte byte ++ escape content := rfl

theorem prepend_nil (read : Except Error (List UInt8 × List UInt8)) : prepend [] read = read := by
  cases read <;> rfl

/-- The bytes of a checked escape are kept as they are. -/
theorem scanString_copy (bytes more : List UInt8) :
    scanString bytes.length (bytes ++ more) = prepend bytes (scanString 0 more) := by
  induction bytes with
  | nil => exact (prepend_nil _).symm
  | cons byte bytes ih => rw [List.length_cons, List.cons_append, scanString, ih, prepend_prepend]; rfl

theorem utf8Encode_of_lt {codePoint : Nat} (h : codePoint < 0x80) :
    utf8Encode codePoint = [UInt8.ofNat codePoint] := by
  rw [utf8Encode, utf8EncodeChar_of_ascii _ (by rw [toNat_ofNat_char h]; exact h), toNat_ofNat_char h]

/-- What `escapeByte` writes: a printable byte other than the quote and the backslash as it
is, or a backslash and an escape that `ignore_escape` accepts and `parse_escape` reads as the
byte. -/
theorem escapeByte_cases (byte : UInt8) :
    (escapeByte byte = [byte] ∧ byte ≠ 0x22 ∧ byte ≠ 0x5c ∧ ¬byte.toNat < 0x20) ∨
    ∃ escaped, escapeByte byte = 0x5c :: escaped ∧ ∀ more,
      ignoreEscape (escaped ++ more) = .ok escaped.length ∧ parseEscape (escaped ++ more) = .ok ([byte], escaped.length) := by
  by_cases special : byte = 0x22 ∨ byte = 0x5c ∨ byte = 0x08 ∨ byte = 0x0c ∨ byte = 0x0a ∨ byte = 0x0d ∨ byte = 0x09
  · rcases special with rfl | rfl | rfl | rfl | rfl | rfl | rfl <;> exact .inr ⟨_, rfl, fun _ => ⟨rfl, rfl⟩⟩
  simp only [not_or] at special
  obtain ⟨h22, h5c, h08, h0c, h0a, h0d, h09⟩ := special
  by_cases control : byte.toNat < 0x20
  · have digits := hex4_control (by omega : byte.toNat / 16 < 16) (by omega : byte.toNat % 16 < 16)
    have value : byte.toNat / 16 * 16 + byte.toNat % 16 = byte.toNat := Nat.div_add_mod' _ _
    have trailing : ¬(0xdc00 ≤ byte.toNat ∧ byte.toNat ≤ 0xdfff) := by omega
    have leading : ¬(0xd800 ≤ byte.toNat ∧ byte.toNat ≤ 0xdbff) := by omega
    refine .inr ⟨_, by simp [escapeByte, h22, h5c, h08, h0c, h0a, h0d, h09, control]; rfl, fun more => ⟨?_, ?_⟩⟩
    · simp [ignoreEscape, unescapeByte, digits]
    · simp [parseEscape, unescapeByte, digits, value, trailing, leading, utf8Encode_of_lt (by omega : byte.toNat < 0x80)]
  · exact .inl ⟨by simp [escapeByte, h22, h5c, h08, h0c, h0a, h0d, h09, control], h22, h5c, control⟩

/-- Every escape `escapeByte` writes is one the scan accepts. -/
theorem scanString_escapeByte (byte : UInt8) (more : List UInt8) :
    scanString 0 (escapeByte byte ++ more) = prepend (escapeByte byte) (scanString 0 more) := by
  rcases escapeByte_cases byte with ⟨plain, h22, h5c, control⟩ | ⟨escaped, text, reads⟩
  · simp [plain, scanString, h22, h5c, control]
  · rw [text, List.cons_append, scanString, if_neg (by decide), if_pos rfl, (reads more).1]
    dsimp only
    rw [scanString_copy, prepend_prepend]
    rfl

theorem scanString_escape (content more : List UInt8) :
    scanString 0 (escape content ++ 0x22 :: more) = .ok (escape content, more) := by
  induction content with
  | nil => simp [scanString]
  | cons byte content ih => rw [escape_cons, List.append_assoc, scanString_escapeByte, ih, prepend_ok]

/-- The bytes of a read escape are passed over. -/
theorem unescape_skip (bytes more : List UInt8) : unescape bytes.length (bytes ++ more) = unescape 0 more := by
  induction bytes with
  | nil => rfl
  | cons byte bytes ih => rw [List.length_cons, List.cons_append, unescape, ih]

/-- `parse_str` reads every escape `escapeByte` writes as the byte it was written from. -/
theorem unescape_escapeByte (byte : UInt8) (more : List UInt8) :
    unescape 0 (escapeByte byte ++ more) = (unescape 0 more).map (byte :: ·) := by
  rcases escapeByte_cases byte with ⟨plain, -, h5c, control⟩ | ⟨escaped, text, reads⟩
  · simp [plain, unescape, h5c, control]
  · rw [text, List.cons_append, unescape, if_pos rfl, (reads more).2]
    dsimp only
    rw [unescape_skip]
    rfl

theorem unescape_escape (content : List UInt8) : unescape 0 (escape content) = .ok content := by
  induction content with
  | nil => rfl
  | cons byte content ih => rw [escape_cons, unescape_escapeByte, ih]; rfl

end Escapes

/-! ## Numbers -/

/-- What may follow a value in the compact form: a comma, a closing bracket or brace, or the
end of the text. -/
def closes : List UInt8 → Bool
  | [] => true
  | byte :: _ => byte = 0x2c || byte = 0x5d || byte = 0x7d

section Numbers

theorem isDigit_digitByte : ∀ digit, digit < 10 → isDigit (digitByte digit) = true := by decide

theorem digitByte_ne_zero : ∀ digit, digit < 10 → digitByte digit = 0x30 → digit = 0 := by decide

theorem decimal_isDigit (value : Nat) : ∀ byte ∈ decimal value, isDigit byte = true := by
  unfold decimal
  split
  · decide
  · simp only [List.mem_map, List.mem_reverse]
    rintro _ ⟨digit, mem, rfl⟩
    exact isDigit_digitByte digit (Nat.digits_lt_base (by norm_num) mem)

theorem decimal_ne_nil (value : Nat) : decimal value ≠ [] := by
  unfold decimal
  split
  · simp
  · simpa [Nat.digits_eq_nil_iff_eq_zero]

/-- The text of a positive integer starts with a digit other than `0`. -/
theorem decimal_of_pos {value : Nat} (positive : value ≠ 0) :
    ∃ digit more, decimal value = digitByte digit :: more ∧ digit < 10 ∧ digit ≠ 0 := by
  have leading := @reverse_digits_ne_zero 10 value
  rw [decimal, if_neg positive]
  cases h : (Nat.digits 10 value).reverse with
  | nil => exact absurd (Nat.digits_eq_nil_iff_eq_zero.1 (List.reverse_eq_nil_iff.1 h)) positive
  | cons digit more =>
    have small := Nat.digits_lt_base (b := 10) (m := value) (by norm_num)
      (List.mem_reverse.1 (h ▸ List.mem_cons_self digit more))
    exact ⟨digit, _, rfl, small, by rintro rfl; simp_all⟩

theorem isDigit_of_closes {byte : UInt8} {rest : List UInt8} (h : closes (byte :: rest) = true) :
    isDigit byte = false := by
  simp only [closes, Bool.or_eq_true, decide_eq_true_eq] at h
  rcases h with (rfl | rfl) | rfl <;> rfl

theorem spanDigits_append {digits rest : List UInt8} (h : ∀ byte ∈ digits, isDigit byte = true)
    (hrest : closes rest = true) : spanDigits (digits ++ rest) = (digits, rest) := by
  rw [spanDigits, List.takeWhile_append_of_pos h, List.dropWhile_append_of_pos h]
  cases rest with
  | nil => simp
  | cons byte rest => simp [isDigit_of_closes hrest]

theorem scanFraction_of_closes {rest : List UInt8} (h : closes rest = true) : scanFraction rest = .ok ([], rest) := by
  match rest, h with
  | [], _ => rfl
  | byte :: more, h =>
    simp only [closes, Bool.or_eq_true, decide_eq_true_eq] at h
    rcases h with (rfl | rfl) | rfl <;> rfl

/-- `ignore_integer` reads the decimal text of an integer back, up to a byte that closes it. -/
theorem scanNumber_decimal (value : Nat) {rest : List UInt8} (h : closes rest = true) :
    scanNumber (decimal value ++ rest) = .ok (decimal value, rest) := by
  by_cases zero : value = 0
  · subst zero
    cases rest with
    | nil => rfl
    | cons byte more =>
      simp [scanNumber, decimal, spanSign, isDigit_of_closes h, scanFraction_of_closes h]
  · obtain ⟨digit, more, text, small, nonzero⟩ := decimal_of_pos zero
    have digits : ∀ byte ∈ more, isDigit byte = true :=
      fun byte mem => decimal_isDigit value byte (text ▸ List.mem_cons_of_mem _ mem)
    have ne_zero : digitByte digit ≠ 0x30 := fun eq => nonzero (digitByte_ne_zero digit small eq)
    have ne_minus : digitByte digit ≠ 0x2d := by
      have := isDigit_digitByte digit small
      intro minus
      rw [minus] at this
      exact absurd this (by decide)
    simp [text, scanNumber, spanSign, ne_minus, ne_zero, isDigit_digitByte digit small,
      spanDigits_append digits h, scanFraction_of_closes h]

end Numbers

/-! ## Values -/

/-- The values this crate's writers produce: numbers in decimal, strings and keys escaped
from their content. -/
inductive Written : Value → Prop
  | null : Written .null
  | bool (value : Bool) : Written (.bool value)
  | number (value : Nat) : Written (.number (decimal value))
  | string (content : List UInt8) : Written (.string (escape content))
  | array {items : List Value} : (∀ item ∈ items, Written item) → Written (.array items)
  | object {members : List (List UInt8 × Value)} :
      (∀ member ∈ members, ∃ content, member.1 = escape content) →
      (∀ member ∈ members, Written member.2) → Written (.object members)

section Scan

theorem skipWhitespace_cons {byte : UInt8} (more : List UInt8) (h : isWhitespace byte = false) :
    skipWhitespace (byte :: more) = byte :: more := by
  simp [skipWhitespace, h]

theorem isDigit_opens {byte : UInt8} (h : isDigit byte = true) : isWhitespace byte = false ∧ byte ≠ 0x5d := by
  simp only [isDigit, Bool.and_eq_true, decide_eq_true_eq] at h
  have ne : ∀ other : UInt8, other.toNat < 0x30 ∨ 0x39 < other.toNat → byte ≠ other :=
    fun other out eq => by subst eq; omega
  exact ⟨by simp [isWhitespace, ne 0x20 (by decide), ne 0x0a (by decide), ne 0x09 (by decide), ne 0x0d (by decide)],
    ne 0x5d (by decide)⟩

/-- A written value opens with a byte that is not whitespace and does not close an array. -/
theorem Written.opens {value : Value} (h : Written value) :
    ∃ byte more, value.write = byte :: more ∧ isWhitespace byte = false ∧ byte ≠ 0x5d := by
  cases h with
  | null => exact ⟨_, _, rfl, rfl, by decide⟩
  | bool value => cases value <;> exact ⟨_, _, rfl, rfl, by decide⟩
  | number value =>
    have digits := decimal_isDigit value
    cases text : decimal value with
    | nil => exact absurd text (decimal_ne_nil value)
    | cons byte more => exact ⟨byte, more, rfl, isDigit_opens (digits byte (text ▸ List.mem_cons_self _ _))⟩
  | string content => exact ⟨_, _, rfl, rfl, by decide⟩
  | array _ => exact ⟨_, _, rfl, rfl, by decide⟩
  | object _ _ => exact ⟨_, _, rfl, rfl, by decide⟩

theorem Written.length_pos {value : Value} (h : Written value) : 0 < value.write.length := by
  obtain ⟨byte, more, text, -⟩ := h.opens
  simp [text]

theorem scanValue_digit (fuel : Nat) {byte : UInt8} (more : List UInt8) (h : isDigit byte = true) :
    scanValue (fuel + 1) (byte :: more) = (scanNumber (byte :: more)).map fun (token, rest) => (.number token, rest) := by
  rw [scanValue, skipWhitespace_cons more (isDigit_opens h).1]
  split <;> simp_all [isDigit]

/-- What the induction on the fuel carries: at `fuel`, a written value, the items of a written
array and the members of a written object are read back, each when its text is short enough. -/
def ReadsBack (fuel : Nat) : Prop :=
  (∀ value, Written value → value.write.length ≤ fuel →
    ∀ rest, closes rest = true → scanValue fuel (value.write ++ rest) = .ok (value, rest)) ∧
  (∀ first items, (∀ item ∈ items, Written item) → (writeItems first items).length < fuel →
    ∀ rest, scanItems fuel first (writeItems first items ++ 0x5d :: rest) = .ok (items, rest)) ∧
  (∀ first members, (∀ member ∈ members, ∃ content, member.1 = escape content) →
    (∀ member ∈ members, Written member.2) → (writeMembers first members).length < fuel →
    ∀ rest, scanMembers fuel first (writeMembers first members ++ 0x7d :: rest) = .ok (members, rest))

theorem readsBack_zero : ReadsBack 0 :=
  ⟨fun _ h fits => absurd fits (by have := h.length_pos; omega),
    fun _ _ _ short => absurd short (Nat.not_lt_zero _),
    fun _ _ _ _ short => absurd short (Nat.not_lt_zero _)⟩

theorem closes_writeItems (items : List Value) (rest : List UInt8) :
    closes (writeItems false items ++ 0x5d :: rest) = true := by
  cases items <;> rfl

theorem closes_writeMembers (members : List (List UInt8 × Value)) (rest : List UInt8) :
    closes (writeMembers false members ++ 0x7d :: rest) = true := by
  cases members <;> rfl

section Step

variable {fuel : Nat} (ih : ReadsBack fuel)
include ih

theorem scanValue_write_succ {value : Value} (h : Written value) (fits : value.write.length ≤ fuel + 1)
    {rest : List UInt8} (closing : closes rest = true) :
    scanValue (fuel + 1) (value.write ++ rest) = .ok (value, rest) := by
  cases h with
  | null => rfl
  | bool value => cases value <;> rfl
  | number value =>
    have digits := decimal_isDigit value
    cases text : decimal value with
    | nil => exact absurd text (decimal_ne_nil value)
    | cons byte more =>
      rw [Value.write, List.cons_append, scanValue_digit _ _ (digits byte (text ▸ List.mem_cons_self _ _)),
        ← List.cons_append, ← text, scanNumber_decimal value closing]
      rfl
  | string content => simp [Value.write, scanValue, skipWhitespace, isWhitespace, scanString_escape, Except.map]
  | @array items hitems =>
    have short : (writeItems true items).length < fuel := by simp [Value.write] at fits; omega
    simp [Value.write, scanValue, skipWhitespace, isWhitespace, ih.2.1 true _ hitems short rest, Except.map]
  | @object members hkeys hvalues =>
    have short : (writeMembers true members).length < fuel := by simp [Value.write] at fits; omega
    simp [Value.write, scanValue, skipWhitespace, isWhitespace, ih.2.2 true _ hkeys hvalues short rest, Except.map]

theorem scanItems_write_succ (first : Bool) {items : List Value} (h : ∀ item ∈ items, Written item)
    (short : (writeItems first items).length < fuel + 1) (rest : List UInt8) :
    scanItems (fuel + 1) first (writeItems first items ++ 0x5d :: rest) = .ok (items, rest) := by
  cases items with
  | nil => simp [writeItems, scanItems, skipWhitespace, isWhitespace]
  | cons item items =>
    have hitem := h item (List.mem_cons_self _ _)
    obtain ⟨byte, more, text, blank, opens⟩ := hitem.opens
    have lengths : item.write.length ≤ fuel ∧ (writeItems false items).length < fuel := by
      have := hitem.length_pos
      simp only [writeItems, List.length_append] at short
      omega
    have value := ih.1 item hitem lengths.1 _ (closes_writeItems items rest)
    have tail := ih.2.1 false items (fun x mem => h x (List.mem_cons_of_mem _ mem)) lengths.2 rest
    rw [text, List.cons_append] at value
    cases first <;> simp [writeItems, text, scanItems, opens, value, tail, skipWhitespace_cons _ blank,
      skipWhitespace_cons _ (rfl : isWhitespace 0x2c = false)]

theorem scanMembers_write_succ (first : Bool) {members : List (List UInt8 × Value)}
    (hkeys : ∀ member ∈ members, ∃ content, member.1 = escape content)
    (hvalues : ∀ member ∈ members, Written member.2)
    (short : (writeMembers first members).length < fuel + 1) (rest : List UInt8) :
    scanMembers (fuel + 1) first (writeMembers first members ++ 0x7d :: rest) = .ok (members, rest) := by
  cases members with
  | nil => simp [writeMembers, scanMembers, skipWhitespace, isWhitespace]
  | cons member members =>
    obtain ⟨key, item⟩ := member
    obtain ⟨content, rfl⟩ := hkeys _ (List.mem_cons_self _ _)
    have hitem := hvalues _ (List.mem_cons_self _ _)
    obtain ⟨byte, more, text, -, -⟩ := hitem.opens
    have lengths : item.write.length ≤ fuel ∧ (writeMembers false members).length < fuel := by
      have := hitem.length_pos
      simp only [writeMembers, List.length_append, List.length_cons] at short
      omega
    have value := ih.1 item hitem lengths.1 _ (closes_writeMembers members rest)
    have tail := ih.2.2 false members (fun x mem => hkeys x (List.mem_cons_of_mem _ mem))
      (fun x mem => hvalues x (List.mem_cons_of_mem _ mem)) lengths.2 rest
    rw [text, List.cons_append] at value
    cases first <;> simp [writeMembers, text, scanMembers, skipWhitespace, isWhitespace, scanString_escape,
      value, tail]

theorem readsBack_succ : ReadsBack (fuel + 1) :=
  ⟨fun _ h fits _ closing => scanValue_write_succ ih h fits closing,
    fun first _ h short rest => scanItems_write_succ ih first h short rest,
    fun first _ hkeys hvalues short rest => scanMembers_write_succ ih first hkeys hvalues short rest⟩

end Step

theorem readsBack (fuel : Nat) : ReadsBack fuel := by
  induction fuel with
  | zero => exact readsBack_zero
  | succ fuel ih => exact readsBack_succ ih

end Scan

/-- The scan reads a written value back from its compact text, up to a byte that may close
it, given at least as much fuel as the text has bytes. -/
theorem scanValue_write {value : Value} (h : Written value) {fuel : Nat} (fits : value.write.length ≤ fuel)
    {rest : List UInt8} (closing : closes rest = true) :
    scanValue fuel (value.write ++ rest) = .ok (value, rest) :=
  (readsBack fuel).1 value h fits rest closing

/-- `from_slice` of the compact text of a written value is the typed reader applied to it. -/
theorem fromSlice_write {α : Type} (read : Value → Except Error α) {value : Value} (h : Written value) :
    fromSlice read value.write = read value := by
  have scan := scanValue_write h (Nat.le_succ _) (show closes ([] : List UInt8) = true from rfl)
  rw [List.append_nil] at scan
  simp only [fromSlice, scan, Except.ok_bind]
  cases read value <;> rfl

end PtokensCore.SerdeJson

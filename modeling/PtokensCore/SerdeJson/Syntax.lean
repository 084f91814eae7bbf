import PtokensCore.Rust.Str

/-! JSON text, as `serde_json` writes and reads it.

`to_vec` writes the compact form: no whitespace, strings escaped as
`format_escaped_str_contents` escapes them. `from_slice` reads one value and then nothing
but whitespace. Reading happens in two steps here: a scan that checks the grammar and keeps
the text of every number and string, as `serde_json` does when it skips a value no field
asks for, and a typed reader that interprets a number or a string only where a field needs
it (`parse_str`, `parse_integer`). The nesting limit of `serde_json` is not modelled: the
scan runs on fuel, and `from_slice` gives it one unit more than there are bytes.
-/

set_option autoImplicit false

namespace PtokensCore.SerdeJson

inductive Error where
  | eofWhileParsingList
  | eofWhileParsingObject
  | eofWhileParsingString
  | eofWhileParsingValue
  | expectedColon
  | expectedListCommaOrEnd
  | expectedObjectCommaOrEnd
  | expectedSomeIdent
  | expectedSomeValue
  | invalidEscape
  | invalidNumber
  | invalidUnicodeCodePoint
  | controlCharacterWhileParsingString
  | keyMustBeAString
  | loneLeadingSurrogateInHexEscape
  | unexpectedEndOfHexEscape
  | trailingCharacters
  | trailingComma
  | outOfFuel
  /-- The errors a typed reader raises through `de::Error`: an invalid type, value or length,
  a missing or duplicate field. -/
  | message (text : String)
  deriving DecidableEq, Repr

/-- A JSON value as the scan reads it: a number or a string keeps its text (a string without
its quotes), and an object its members in the order of the text. -/
inductive Value where
  | null
  | bool (value : Bool)
  | number (token : List UInt8)
  | string (token : List UInt8)
  | array (items : List Value)
  | object (members : List (List UInt8 × Value))

/-! ## Writing -/

mutual

/-- The compact form: `null`, `true`, `false`, the number's text, `"` around the string's
text, `[`, `,` and `]` around items, `{`, `:`, `,` and `}` around members. -/
def Value.write : Value → List UInt8
  | .null => [0x6e, 0x75, 0x6c, 0x6c]
  | .bool true => [0x74, 0x72, 0x75, 0x65]
  | .bool false => [0x66, 0x61, 0x6c, 0x73, 0x65]
  | .number token => token
  | .string token => 0x22 :: token ++ [0x22]
  | .array items => 0x5b :: writeItems true items ++ [0x5d]
  | .object members => 0x7b :: writeMembers true members ++ [0x7d]

def writeItems : Bool → List Value → List UInt8
  | _, [] => []
  | first, item :: rest => (if first then [] else [0x2c]) ++ item.write ++ writeItems false rest

def writeMembers : Bool → List (List UInt8 × Value) → List UInt8
  | _, [] => []
  | first, (key, value) :: rest =>
    (if first then [] else [0x2c]) ++ 0x22 :: key ++ 0x22 :: 0x3a :: value.write ++ writeMembers false rest

end

/-- `b"0123456789abcdef"[value]`. -/
def hexDigit (value : Nat) : UInt8 := if value < 10 then UInt8.ofNat (0x30 + value) else UInt8.ofNat (0x57 + value)

/-- How `format_escaped_str_contents` writes one byte: the quote, the backslash and the
control characters are escaped, every other byte is copied. -/
def escapeByte (byte : UInt8) : List UInt8 :=
  if byte = 0x22 then [0x5c, 0x22]
  else if byte = 0x5c then [0x5c, 0x5c]
  else if byte = 0x08 then [0x5c, 0x62]
  else if byte = 0x0c then [0x5c, 0x66]
  else if byte = 0x0a then [0x5c, 0x6e]
  else if byte = 0x0d then [0x5c, 0x72]
  else if byte = 0x09 then [0x5c, 0x74]
  else if byte.toNat < 0x20 then [0x5c, 0x75, 0x30, 0x30, hexDigit (byte.toNat / 16), hexDigit (byte.toNat % 16)]
  else [byte]

def escape (content : List UInt8) : List UInt8 := content.flatMap escapeByte

/-- The text of one decimal digit. -/
def digitByte (digit : Nat) : UInt8 := UInt8.ofNat (0x30 + digit)

/-- The decimal text of an integer, as `itoa` writes it. -/
def decimal (value : Nat) : List UInt8 :=
  if value = 0 then [0x30] else (Nat.digits 10 value).reverse.map digitByte

/-! ## Scanning -/

def isWhitespace (byte : UInt8) : Bool := byte = 0x20 || byte = 0x0a || byte = 0x09 || byte = 0x0d

def skipWhitespace (bytes : List UInt8) : List UInt8 := bytes.dropWhile isWhitespace

def isDigit (byte : UInt8) : Bool := 0x30 ≤ byte.toNat && byte.toNat ≤ 0x39

def hexValue (byte : UInt8) : Option Nat :=
  if isDigit byte then some (byte.toNat - 0x30)
  else if 0x61 ≤ byte.toNat ∧ byte.toNat ≤ 0x66 then some (byte.toNat - 0x57)
  else if 0x41 ≤ byte.toNat ∧ byte.toNat ≤ 0x46 then some (byte.toNat - 0x37)
  else none

/-- The byte a two-byte escape `\x` stands for. -/
def unescapeByte (escaped : UInt8) : Option UInt8 :=
  if escaped = 0x22 then some 0x22 else if escaped = 0x5c then some 0x5c
  else if escaped = 0x2f then some 0x2f else if escaped = 0x62 then some 0x08
  else if escaped = 0x66 then some 0x0c else if escaped = 0x6e then some 0x0a
  else if escaped = 0x72 then some 0x0d else if escaped = 0x74 then some 0x09
  else none

/-- Four hexadecimal digits. -/
def hex4 (h1 h2 h3 h4 : UInt8) : Option Nat :=
  match hexValue h1, hexValue h2, hexValue h3, hexValue h4 with
  | some a, some b, some c, some d => some (((a * 16 + b) * 16 + c) * 16 + d)
  | _, _, _, _ => none

/-- Put bytes in front of the text a scan read. -/
def prepend (bytes : List UInt8) (read : Except Error (List UInt8 × List UInt8)) :
    Except Error (List UInt8 × List UInt8) :=
  read.map fun (token, rest) => (bytes ++ token, rest)

/-- `ignore_escape`, after a backslash: how many bytes the escape takes (a `\u` needs four
hexadecimal digits). -/
def ignoreEscape : List UInt8 → Except Error Nat
  | [] => .error .eofWhileParsingString
  | escaped :: rest =>
    if (unescapeByte escaped).isSome then .ok 1
    else if escaped = 0x75 then
      match rest with
      | h1 :: h2 :: h3 :: h4 :: _ => if (hex4 h1 h2 h3 h4).isSome then .ok 5 else .error .invalidEscape
      | _ => .error .eofWhileParsingString
    else .error .invalidEscape

/-- `ignore_str`: the text of a string up to its closing quote. The bytes of an escape,
`copy` of them once `ignoreEscape` has checked it, are kept as they are. -/
def scanString : Nat → List UInt8 → Except Error (List UInt8 × List UInt8)
  | _, [] => .error .eofWhileParsingString
  | copy + 1, byte :: rest => prepend [byte] (scanString copy rest)
  | 0, byte :: rest =>
    if byte = 0x22 then .ok ([], rest)
    else if byte = 0x5c then
      match ignoreEscape rest with
      | .ok length => prepend [byte] (scanString length rest)
      | .error e => .error e
    else if byte.toNat < 0x20 then .error .controlCharacterWhileParsingString
    else prepend [byte] (scanString 0 rest)

/-- The digits at the front of the bytes, and what follows them. -/
def spanDigits (bytes : List UInt8) : List UInt8 × List UInt8 := (bytes.takeWhile isDigit, bytes.dropWhile isDigit)

/-- A `-` or `+` at the front, as text, and what follows it. -/
def spanSign (signs : List UInt8) (bytes : List UInt8) : List UInt8 × List UInt8 :=
  match bytes with
  | byte :: rest => if byte ∈ signs then ([byte], rest) else ([], bytes)
  | [] => ([], [])

/-- `ignore_exponent`, after the `e`: a sign, then at least one digit. -/
def scanExponent (bytes : List UInt8) : Except Error (List UInt8 × List UInt8) :=
  match (spanSign [0x2b, 0x2d] bytes).2 with
  | byte :: rest =>
    if isDigit byte then .ok ((spanSign [0x2b, 0x2d] bytes).1 ++ byte :: (spanDigits rest).1, (spanDigits rest).2)
    else .error .invalidNumber
  | [] => .error .invalidNumber

/-- `ignore_exponent` if an `e` or `E` follows, else nothing. -/
def scanExponentPart (bytes : List UInt8) : Except Error (List UInt8 × List UInt8) :=
  match bytes with
  | byte :: rest => if byte = 0x65 || byte = 0x45 then prepend [byte] (scanExponent rest) else .ok ([], bytes)
  | [] => .ok ([], [])

/-- `ignore_decimal` if a `.` follows (at least one digit), then the exponent part. -/
def scanFraction (bytes : List UInt8) : Except Error (List UInt8 × List UInt8) :=
  match bytes with
  | byte :: rest =>
    if byte = 0x2e then
      match rest with
      | digit :: more =>
        if isDigit digit then prepend (0x2e :: digit :: (spanDigits more).1) (scanExponentPart (spanDigits more).2)
        else .error .invalidNumber
      | [] => .error .invalidNumber
    else scanExponentPart bytes
  | [] => .ok ([], [])

/-- `ignore_integer`, after an optional `-`: one `0` not followed by a digit, or a digit from
1 to 9 and more digits; then a fraction or an exponent, if one follows. -/
def scanNumber (bytes : List UInt8) : Except Error (List UInt8 × List UInt8) :=
  match (spanSign [0x2d] bytes).2 with
  | byte :: rest =>
    if byte = 0x30 then
      if (rest.head?.map isDigit).getD false then .error .invalidNumber
      else prepend ((spanSign [0x2d] bytes).1 ++ [0x30]) (scanFraction rest)
    else if isDigit byte then
      prepend ((spanSign [0x2d] bytes).1 ++ byte :: (spanDigits rest).1) (scanFraction (spanDigits rest).2)
    else .error .invalidNumber
  | [] => .error .invalidNumber

/-- `parse_ident`: the rest of `null`, `true` or `false`. -/
def scanIdent : List UInt8 → List UInt8 → Except Error (List UInt8)
  | [], rest => .ok rest
  | _ :: _, [] => .error .eofWhileParsingValue
  | expected :: more, byte :: rest => if byte = expected then scanIdent more rest else .error .expectedSomeIdent

mutual

/-- One value, after any whitespace. -/
def scanValue : Nat → List UInt8 → Except Error (Value × List UInt8)
  | 0, _ => .error .outOfFuel
  | fuel + 1, bytes =>
    match skipWhitespace bytes with
    | [] => .error .eofWhileParsingValue
    | 0x6e :: rest => (scanIdent [0x75, 0x6c, 0x6c] rest).map fun rest => (.null, rest)
    | 0x74 :: rest => (scanIdent [0x72, 0x75, 0x65] rest).map fun rest => (.bool true, rest)
    | 0x66 :: rest => (scanIdent [0x61, 0x6c, 0x73, 0x65] rest).map fun rest => (.bool false, rest)
    | 0x22 :: rest => (scanString 0 rest).map fun (token, rest) => (.string token, rest)
    | 0x5b :: rest => (scanItems fuel true rest).map fun (items, rest) => (.array items, rest)
    | 0x7b :: rest => (scanMembers fuel true rest).map fun (members, rest) => (.object members, rest)
    | byte :: rest =>
      if byte = 0x2d || isDigit byte then (scanNumber (byte :: rest)).map fun (token, rest) => (.number token, rest)
      else .error .expectedSomeValue

/-- The items of an array after `[` (`first`) or after an item: `has_next_element`. -/
def scanItems : Nat → Bool → List UInt8 → Except Error (List Value × List UInt8)
  | 0, _, _ => .error .outOfFuel
  | fuel + 1, first, bytes =>
    match skipWhitespace bytes with
    | [] => .error .eofWhileParsingList
    | peek :: after =>
      if peek = 0x5d then .ok ([], after)
      else do
        let start ← if first then pure (peek :: after)
          else if peek = 0x2c then
            match skipWhitespace after with
            | [] => throw .eofWhileParsingValue
            | next :: more => if next = 0x5d then throw .trailingComma else pure (next :: more)
          else throw .expectedListCommaOrEnd
        let (item, rest) ← scanValue fuel start
        let (items, rest) ← scanItems fuel false rest
        pure (item :: items, rest)

/-- The members of an object after `{` (`first`) or after a member: `has_next_key`, the key,
`parse_object_colon` and the value. -/
def scanMembers : Nat → Bool → List UInt8 → Except Error (List (List UInt8 × Value) × List UInt8)
  | 0, _, _ => .error .outOfFuel
  | fuel + 1, first, bytes =>
    match skipWhitespace bytes with
    | [] => .error .eofWhileParsingObject
    | peek :: after =>
      if peek = 0x7d then .ok ([], after)
      else do
        let start ← if first then (if peek = 0x22 then pure after else throw .keyMustBeAString)
          else if peek = 0x2c then
            match skipWhitespace after with
            | [] => throw .eofWhileParsingValue
            | next :: more =>
              if next = 0x22 then pure more
              else if next = 0x7d then throw .trailingComma
              else throw .keyMustBeAString
          else throw .expectedObjectCommaOrEnd
        let (key, rest) ← scanString 0 start
        let rest ← match skipWhitespace rest with
          | [] => throw .eofWhileParsingObject
          | colon :: rest => if colon = 0x3a then pure rest else throw .expectedColon
        let (value, rest) ← scanValue fuel rest
        let (members, rest) ← scanMembers fuel false rest
        pure ((key, value) :: members, rest)

end

/-! ## Strings -/

/-- `char::encode_utf8` of a code point. -/
def utf8Encode (codePoint : Nat) : List UInt8 := String.utf8EncodeChar (Char.ofNat codePoint)

/-- `parse_escape`, after a backslash: the bytes the escape stands for and how many bytes it
takes. A `\u` escape of a leading surrogate must be followed by one of a trailing surrogate. -/
def parseEscape : List UInt8 → Except Error (List UInt8 × Nat)
  | [] => .error .eofWhileParsingString
  | escaped :: rest =>
    match unescapeByte escaped with
    | some byte => .ok ([byte], 1)
    | none =>
      if escaped = 0x75 then
        match rest with
        | h1 :: h2 :: h3 :: h4 :: rest =>
          match hex4 h1 h2 h3 h4 with
          | none => .error .invalidEscape
          | some unit =>
            if 0xdc00 ≤ unit ∧ unit ≤ 0xdfff then .error .loneLeadingSurrogateInHexEscape
            else if 0xd800 ≤ unit ∧ unit ≤ 0xdbff then
              match rest with
              | 0x5c :: 0x75 :: l1 :: l2 :: l3 :: l4 :: _ =>
                match hex4 l1 l2 l3 l4 with
                | none => .error .invalidEscape
                | some low =>
                  if 0xdc00 ≤ low ∧ low ≤ 0xdfff then
                    .ok (utf8Encode ((unit - 0xd800) * 0x400 + (low - 0xdc00) + 0x10000), 11)
                  else .error .loneLeadingSurrogateInHexEscape
              | 0x5c :: 0x75 :: _ => .error .eofWhileParsingString
              | _ => .error .unexpectedEndOfHexEscape
            else .ok (utf8Encode unit, 5)
        | _ => .error .eofWhileParsingString
      else .error .invalidEscape

/-- `parse_str` on the text of a string: the bytes its escapes stand for. The bytes of an
escape, `skip` of them once `parseEscape` has read it, are passed over. -/
def unescape : Nat → List UInt8 → Except Error (List UInt8)
  | _, [] => .ok []
  | skip + 1, _ :: rest => unescape skip rest
  | 0, byte :: rest =>
    if byte = 0x5c then
      match parseEscape rest with
      | .ok (bytes, length) => (unescape length rest).map (bytes ++ ·)
      | .error e => .error e
    else if byte.toNat < 0x20 then .error .controlCharacterWhileParsingString
    else (unescape 0 rest).map (byte :: ·)

/-- `serde_json::from_slice` with a typed reader: the value, then only whitespace. -/
def fromSlice {α : Type} (read : Value → Except Error α) (bytes : List UInt8) : Except Error α := do
  let (value, rest) ← scanValue (bytes.length + 1) bytes
  let result ← read value
  if (skipWhitespace rest).isEmpty then pure result else throw .trailingCharacters

end PtokensCore.SerdeJson

import PtokensCore.SerdeJson.RoundTrip

/-! The `Serialize` and `Deserialize` implementations the crate's records use, as values of
the JSON model: `u8`, `Vec<T>`, `String` and the derived implementations of structs.

A derived struct is written as an object with one member per field, in declaration order.
It is read from an object whose keys are strings naming fields (a key naming no field is
skipped, one naming a field twice is refused, a missing field is refused), or from an array
of one value per field. A `de::Error` carries serde's message without the part that shows
the value found.
-/

set_option autoImplicit false

namespace PtokensCore.SerdeJson

/-! ## Writing -/

def u8Value (byte : UInt8) : Value := .number (decimal byte.toNat)

/-- `serialize_seq`: one item per element. -/
def seqValue {α : Type} (write : α → Value) (items : List α) : Value := .array (items.map write)

/-- `Vec<u8>`, a sequence of numbers. -/
def bytesValue (bytes : List UInt8) : Value := seqValue u8Value bytes

def stringValue (text : RustString) : Value := .string (escape text.bytes)

/-- A derived struct: its fields by name, in declaration order. -/
def structValue (fields : List (String × Value)) : Value :=
  .object (fields.map fun field => (escape (utf8Bytes field.1), field.2))

/-! ## Reading -/

def invalidType (expected : String) : Error := .message ("invalid type, expected " ++ expected)

/-- `u8::deserialize`: an integer in range. -/
def readU8 : Value → Except Error UInt8
  | .number token =>
    if token.all isDigit then
      if bigEndian 10 (token.map fun byte => byte.toNat - 0x30) < 256 then
        .ok (UInt8.ofNat (bigEndian 10 (token.map fun byte => byte.toNat - 0x30)))
      else .error (.message "invalid value, expected u8")
    else .error (invalidType "u8")
  | _ => .error (invalidType "u8")

/-- `Vec<T>::deserialize`: every item in turn. -/
def readSeq {α : Type} (read : Value → Except Error α) : Value → Except Error (List α)
  | .array items => items.mapM read
  | _ => .error (invalidType "a sequence")

def readBytes : Value → Except Error (List UInt8) := readSeq readU8

/-- `parse_str` with validation: the content, which must be UTF-8. -/
def readKey (token : List UInt8) : Except Error RustString := do
  let content ← unescape 0 token
  if valid : validUtf8 content then pure ⟨content, valid⟩ else throw .invalidUnicodeCodePoint

def readString : Value → Except Error RustString
  | .string token => readKey token
  | _ => .error (invalidType "a string")

/-- `visit_map` of a derived struct: the members whose keys name fields, in the order they
came, each field at most once. -/
def collectFields (names : List String) :
    List (List UInt8 × Value) → List (List UInt8 × Value) → Except Error (List (List UInt8 × Value))
  | found, [] => .ok found
  | found, (key, value) :: members => do
    let name ← readKey key
    match names.find? (utf8Bytes · == name.bytes) with
    | none => collectFields names found members
    | some field =>
      if found.any (·.1 == name.bytes) then .error (.message ("duplicate field `" ++ field ++ "`"))
      else collectFields names (found ++ [(name.bytes, value)]) members

def fieldValue (found : List (List UInt8 × Value)) (name : String) : Except Error Value :=
  match found.find? (·.1 == utf8Bytes name) with
  | some (_, value) => .ok value
  | none => .error (.message ("missing field `" ++ name ++ "`"))

/-- A derived struct with fields `names`: the value of each field, in the order of `names`.
From an array, fewer items than fields is an invalid length, more leaves characters
`end_seq` refuses. -/
def readStruct (names : List String) : Value → Except Error (List Value)
  | .object members => do
    let found ← collectFields names [] members
    names.mapM (fieldValue found)
  | .array items =>
    if items.length < names.length then .error (.message ("invalid length " ++ toString items.length))
    else if names.length < items.length then .error .trailingCharacters
    else .ok items
  | _ => .error (invalidType "a struct")

/-! ## What the writers write is written -/

theorem written_u8Value (byte : UInt8) : Written (u8Value byte) := .number _

theorem written_seqValue {α : Type} {write : α → Value} (h : ∀ item, Written (write item)) (items : List α) :
    Written (seqValue write items) :=
  .array fun _ mem => by obtain ⟨item, -, rfl⟩ := List.mem_map.1 mem; exact h item

theorem written_bytesValue (bytes : List UInt8) : Written (bytesValue bytes) :=
  written_seqValue written_u8Value bytes

theorem written_stringValue (text : RustString) : Written (stringValue text) := .string _

theorem written_structValue {fields : List (String × Value)} (h : ∀ field ∈ fields, Written field.2) :
    Written (structValue fields) := by
  refine .object (fun member mem => ?_) (fun member mem => ?_) <;>
    obtain ⟨field, inFields, rfl⟩ := List.mem_map.1 mem
  exacts [⟨_, rfl⟩, h field inFields]

/-! ## What the readers read back -/

/-- The digits of the decimal text, as numbers, are the digits of the value. -/
theorem map_decimal (value : Nat) :
    (decimal value).map (fun byte => byte.toNat - 0x30) = if value = 0 then [0] else (Nat.digits 10 value).reverse := by
  unfold decimal
  split
  · rfl
  · rw [List.map_map]
    conv_rhs => rw [← List.map_id (Nat.digits 10 value).reverse]
    refine List.map_congr_left fun digit mem => ?_
    have : digit < 10 := Nat.digits_lt_base (by norm_num) (List.mem_reverse.1 mem)
    simp [digitByte]
    omega

theorem bigEndian_decimal (value : Nat) : bigEndian 10 ((decimal value).map fun byte => byte.toNat - 0x30) = value := by
  rw [map_decimal]
  split
  · simp_all [bigEndian]
  · exact bigEndian_reverse_digits value

theorem readU8_u8Value (byte : UInt8) : readU8 (u8Value byte) = .ok byte := by
  have all : (decimal byte.toNat).all isDigit = true := List.all_eq_true.2 (decimal_isDigit _)
  simp [readU8, u8Value, all, bigEndian_decimal, byte.toNat_lt]

theorem mapM_map_ok {α : Type} (read : Value → Except Error α) (write : α → Value)
    (readBack : ∀ item, read (write item) = .ok item) (items : List α) :
    (items.map write).mapM read = .ok items := by
  induction items with
  | nil => rfl
  | cons item items ih => rw [List.map_cons, List.mapM_cons, readBack, ih]; rfl

theorem readSeq_seqValue {α : Type} {read : Value → Except Error α} {write : α → Value}
    (readBack : ∀ item, read (write item) = .ok item) (items : List α) :
    readSeq read (seqValue write items) = .ok items :=
  mapM_map_ok read write readBack items

theorem readBytes_bytesValue (bytes : List UInt8) : readBytes (bytesValue bytes) = .ok bytes :=
  readSeq_seqValue readU8_u8Value bytes

theorem readKey_escape (text : RustString) : readKey (escape text.bytes) = .ok text := by
  simp [readKey, unescape_escape, text.valid]

theorem readString_stringValue (text : RustString) : readString (stringValue text) = .ok text :=
  readKey_escape text

/-! ## Structs read back -/

section Structs

variable {names : List String}

theorem find?_utf8Bytes_of_mem {name : String} (mem : name ∈ names) :
    ∃ field, names.find? (utf8Bytes · == utf8Bytes name) = some field := by
  cases h : names.find? (utf8Bytes · == utf8Bytes name) with
  | none => exact absurd (List.find?_eq_none.1 h name mem) (by simp)
  | some field => exact ⟨field, rfl⟩

theorem find?_key_eq_none {found : List (List UInt8 × Value)} {key : List UInt8} (absent : key ∉ found.map (·.1)) :
    found.find? (·.1 == key) = none :=
  List.find?_eq_none.2 fun member mem same => absent (by simp at same; exact same ▸ List.mem_map_of_mem _ mem)

/-- `visit_map` over the members of a written struct keeps every field, in order. -/
theorem collectFields_structValue (found : List (List UInt8 × Value)) {fields : List (String × Value)}
    (named : ∀ field ∈ fields, field.1 ∈ names) (valid : ∀ field ∈ fields, validUtf8 (utf8Bytes field.1) = true)
    (distinct : (found.map (·.1) ++ fields.map (utf8Bytes ·.1)).Nodup) :
    collectFields names found (fields.map fun field => (escape (utf8Bytes field.1), field.2)) =
      .ok (found ++ fields.map fun field => (utf8Bytes field.1, field.2)) := by
  induction fields generalizing found with
  | nil => simp [collectFields]
  | cons field fields ih =>
    have key : readKey (escape (utf8Bytes field.1)) = .ok ⟨utf8Bytes field.1, _⟩ :=
      readKey_escape ⟨_, valid field (List.mem_cons_self _ _)⟩
    obtain ⟨name, find⟩ := find?_utf8Bytes_of_mem (named field (List.mem_cons_self _ _))
    have absent : utf8Bytes field.1 ∉ found.map (·.1) := by
      intro mem
      exact (List.nodup_append.1 distinct).2.2 mem (List.mem_cons_self _ _)
    have fresh : found.any (·.1 == utf8Bytes field.1) = false :=
      List.any_eq_false.2 fun member mem same => absent (by simp at same; exact same ▸ List.mem_map_of_mem _ mem)
    have rest := ih (found ++ [(utf8Bytes field.1, field.2)])
      (fun other mem => named other (List.mem_cons_of_mem _ mem))
      (fun other mem => valid other (List.mem_cons_of_mem _ mem)) (by simpa using distinct)
    simp only [List.map_cons, collectFields, key, Except.ok_bind, find, fresh, rest]
    simp

/-- Every field found once is read by its name. -/
theorem mapM_fieldValue (before : List (List UInt8 × Value)) {fields : List (String × Value)}
    (distinct : (before.map (·.1) ++ fields.map (utf8Bytes ·.1)).Nodup) :
    (fields.map (·.1)).mapM (fieldValue (before ++ fields.map fun field => (utf8Bytes field.1, field.2))) =
      .ok (fields.map (·.2)) := by
  induction fields generalizing before with
  | nil => rfl
  | cons field fields ih =>
    have absent : utf8Bytes field.1 ∉ before.map (·.1) := by
      intro mem
      exact (List.nodup_append.1 distinct).2.2 mem (List.mem_cons_self _ _)
    have head : fieldValue (before ++ (fields.map fun field => (utf8Bytes field.1, field.2)).cons
        (utf8Bytes field.1, field.2)) field.1 = .ok field.2 := by
      simp [fieldValue, List.find?_append, find?_key_eq_none absent]
    have rest := ih (before ++ [(utf8Bytes field.1, field.2)]) (by simpa using distinct)
    rw [List.append_assoc, List.singleton_append] at rest
    rw [List.map_cons, List.map_cons, List.mapM_cons, head, rest]
    rfl

/-- The derived `Deserialize` reads a written struct back, field by field, when no two field
names are the same and each is UTF-8. -/
theorem readStruct_structValue {fields : List (String × Value)} (distinct : (fields.map (utf8Bytes ·.1)).Nodup)
    (valid : ∀ field ∈ fields, validUtf8 (utf8Bytes field.1) = true) :
    readStruct (fields.map (·.1)) (structValue fields) = .ok (fields.map (·.2)) := by
  have found := collectFields_structValue [] (fun field mem => List.mem_map_of_mem (·.1) mem) valid (by simpa)
  have values := mapM_fieldValue [] (by simpa using distinct)
  rw [List.nil_append] at found values
  simp only [readStruct, structValue, found, Except.ok_bind, values]

/-- The same, for a struct given as its field names and the values written for them. -/
theorem readStruct_zip {names : List String} {values : List Value} (length : names.length = values.length)
    (distinct : (names.map utf8Bytes).Nodup) (valid : ∀ name ∈ names, validUtf8 (utf8Bytes name) = true) :
    readStruct names (structValue (names.zip values)) = .ok values := by
  have firsts : (names.zip values).map (·.1) = names := List.map_fst_zip _ _ length.le
  have seconds : (names.zip values).map (·.2) = values := List.map_snd_zip _ _ length.ge
  have read := @readStruct_structValue (names.zip values)
    (by have := congrArg (List.map utf8Bytes) firsts; rw [List.map_map] at this; rwa [← this] at distinct)
    (fun field mem => valid field.1 (firsts ▸ List.mem_map_of_mem (·.1) mem))
  rwa [firsts, seconds] at read

end Structs

end PtokensCore.SerdeJson

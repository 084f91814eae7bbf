import PtokensCore.Rust.Basic

/-! Bitcoin scripts as the `bitcoin` crate builds and reads them.

`Builder::push_slice` writes a data push with the shortest of the four push forms and
panics on a slice of 2^32 bytes or more; `Script::instructions` reads a script back into
pushes and opcodes. The round trip `instructions_encodeAll` is the law the builders of
`btc_utils.rs` rely on: a script assembled from pushes and plain opcodes reads back as
exactly those instructions.
-/

set_option autoImplicit false

namespace PtokensCore.Bitcoin

/-! ## Opcodes -/

def opPushbytes20 : UInt8 := 0x14
def opPushdata1 : UInt8 := 0x4c
def opPushdata2 : UInt8 := 0x4d
def opPushdata4 : UInt8 := 0x4e
def opPushnum1 : UInt8 := 0x51
def opPushnum16 : UInt8 := 0x60
def opDrop : UInt8 := 0x75
def opDup : UInt8 := 0x76
def opEqual : UInt8 := 0x87
def opEqualVerify : UInt8 := 0x88
def opHash160 : UInt8 := 0xa9
def opChecksig : UInt8 := 0xac

/-- An opcode that `Instructions` reads as an `Op`: neither a direct push nor a `PUSHDATA`. -/
def IsPlainOpcode (code : UInt8) : Prop := 0x4f ≤ code.toNat

instance (code : UInt8) : Decidable (IsPlainOpcode code) := inferInstanceAs (Decidable (_ ≤ _))

/-! ## Building -/

structure Script where
  bytes : List UInt8
  deriving DecidableEq, Hashable, Repr

structure Builder where
  bytes : List UInt8
  deriving DecidableEq, Repr

def Builder.new : Builder := ⟨[]⟩

def Builder.intoScript (builder : Builder) : Script := ⟨builder.bytes⟩

def Builder.pushOpcode (builder : Builder) (code : UInt8) : Builder := ⟨builder.bytes ++ [code]⟩

/-- The push opcode and length bytes `push_slice` writes before `n` bytes of data. -/
def pushPrefix (n : Nat) : List UInt8 :=
  if n < 0x4c then [UInt8.ofNat n]
  else if n < 0x100 then [opPushdata1, UInt8.ofNat n]
  else if n < 0x10000 then opPushdata2 :: toLeBytes 2 n
  else opPushdata4 :: toLeBytes 4 n

def Builder.pushSlice {ε : Type} (builder : Builder) (data : List UInt8) : Except (Fault ε) Builder :=
  if data.length < 0x100000000 then pure ⟨builder.bytes ++ pushPrefix data.length ++ data⟩
  else throw (.panic "tried to put a 4bn+ sized object into a script!")

theorem pushSlice_of_lt {ε : Type} (builder : Builder) {data : List UInt8} (fits : data.length < 2 ^ 32) :
    builder.pushSlice (ε := ε) data = .ok ⟨builder.bytes ++ pushPrefix data.length ++ data⟩ := by
  simp only [Builder.pushSlice, if_pos (show data.length < 0x100000000 from fits)]
  rfl

theorem pushSlice_of_le {ε : Type} (builder : Builder) {data : List UInt8} (large : 2 ^ 32 ≤ data.length) :
    builder.pushSlice (ε := ε) data = .error (.panic "tried to put a 4bn+ sized object into a script!") := by
  simp only [Builder.pushSlice, if_neg (show ¬data.length < 0x100000000 by omega)]
  rfl

/-! ## Reading -/

inductive Instruction where
  | pushBytes (data : List UInt8)
  | op (code : UInt8)
  deriving DecidableEq, Repr

inductive ScriptError where
  | earlyEndOfScript
  | nonMinimalPush
  deriving DecidableEq, Repr

/-- A `PUSHDATA` whose length takes `width` bytes; `minimum` is the least length it may
carry under minimal-push rules. -/
def readPushdata (enforceMinimal : Bool) (width minimum : Nat) (rest : List UInt8) :
    Except ScriptError (Instruction × List UInt8) :=
  match readLe width rest with
  | none => .error .earlyEndOfScript
  | some (n, data) =>
    if data.length < n then .error .earlyEndOfScript
    else if enforceMinimal && n < minimum then .error .nonMinimalPush
    else .ok (.pushBytes (data.take n), data.drop n)

/-- One step of `Instructions::next`; `none` once the script is exhausted. -/
def nextInstruction (enforceMinimal : Bool) : List UInt8 → Option (Except ScriptError (Instruction × List UInt8))
  | [] => none
  | code :: rest =>
    if code < opPushdata1 then
      let n := code.toNat
      if rest.length < n then some (.error .earlyEndOfScript)
      else if enforceMinimal && n = 1 && (rest.headD 0 = 0x81 || (0 < rest.headD 0 && rest.headD 0 ≤ 16)) then
        some (.error .nonMinimalPush)
      else some (.ok (.pushBytes (rest.take n), rest.drop n))
    else if code = opPushdata1 then some (readPushdata enforceMinimal 1 0x4c rest)
    else if code = opPushdata2 then some (readPushdata enforceMinimal 2 0x100 rest)
    else if code = opPushdata4 then some (readPushdata enforceMinimal 4 0x10000 rest)
    else some (.ok (.op code, rest))

/-- The iterator collected into a `Result`: every instruction, or the error that ends it.
Each step consumes a byte, so `fuel` at the script's length always suffices. -/
def instructionsFrom (enforceMinimal : Bool) : Nat → List UInt8 → Except ScriptError (List Instruction)
  | 0, _ => .ok []
  | fuel + 1, bytes =>
    match nextInstruction enforceMinimal bytes with
    | none => .ok []
    | some (.error e) => .error e
    | some (.ok (instruction, rest)) => (instruction :: ·) <$> instructionsFrom enforceMinimal fuel rest

def Script.instructions (script : Script) : Except ScriptError (List Instruction) :=
  instructionsFrom false script.bytes.length script.bytes

/-! ## Reading back what the builder wrote -/

/-- The bytes `push_slice` or `push_opcode` writes for one instruction. -/
def Instruction.encode : Instruction → List UInt8
  | .pushBytes data => pushPrefix data.length ++ data
  | .op code => [code]

/-- What the builder can write without panicking and the reader takes back as written. -/
def Instruction.Encodable : Instruction → Prop
  | .pushBytes data => data.length < 2 ^ 32
  | .op code => IsPlainOpcode code

instance (instruction : Instruction) : Decidable instruction.Encodable :=
  match instruction with
  | .pushBytes data => inferInstanceAs (Decidable (data.length < 2 ^ 32))
  | .op code => inferInstanceAs (Decidable (IsPlainOpcode code))

def encodeAll (instructions : List Instruction) : List UInt8 := instructions.flatMap Instruction.encode

theorem pushPrefix_ne_nil (n : Nat) : pushPrefix n ≠ [] := by
  unfold pushPrefix
  split_ifs <;> simp

theorem length_pushPrefix_le (n : Nat) : (pushPrefix n).length ≤ 5 := by
  unfold pushPrefix
  split_ifs <;> simp

theorem length_pushPrefix_of_lt {n : Nat} (small : n < 0x4c) : (pushPrefix n).length = 1 := by
  simp [pushPrefix, small]

theorem length_le_encodeAll (instructions : List Instruction) :
    instructions.length ≤ (encodeAll instructions).length := by
  induction instructions with
  | nil => simp [encodeAll]
  | cons first rest ih =>
    have : 1 ≤ first.encode.length := by
      cases first with
      | pushBytes data =>
        have := List.length_pos.mpr (pushPrefix_ne_nil data.length)
        simp only [Instruction.encode, List.length_append]
        omega
      | op code => simp [Instruction.encode]
    simp only [encodeAll, List.flatMap_cons, List.length_append, List.length_cons] at ih ⊢
    omega

theorem nextInstruction_push (enforceMinimal : Bool) {data : List UInt8} (fits : data.length < 2 ^ 32)
    (rest : List UInt8) (minimal : enforceMinimal = false) :
    nextInstruction enforceMinimal (pushPrefix data.length ++ data ++ rest) =
      some (.ok (.pushBytes data, rest)) := by
  subst minimal
  have read (width : Nat) (bound : data.length < 256 ^ width) :
      readPushdata false width 0 (toLeBytes width data.length ++ data ++ rest) =
        .ok (.pushBytes data, rest) := by
    simp [readPushdata, List.append_assoc, readLe_toLeBytes _ _ _ bound]
  unfold pushPrefix
  split_ifs with small byte word
  · have same : (UInt8.ofNat data.length).toNat = data.length := by simp; omega
    have direct : UInt8.ofNat data.length < opPushdata1 := by
      rw [UInt8.lt_iff_toNat, same]
      exact small
    simp [nextInstruction, direct, same]
  · simpa [nextInstruction, opPushdata1, toLeBytes, readPushdata] using read 1 byte
  · simpa [nextInstruction, opPushdata1, opPushdata2, readPushdata] using read 2 word
  · simpa [nextInstruction, opPushdata1, opPushdata2, opPushdata4, readPushdata] using read 4 fits

theorem nextInstruction_op (enforceMinimal : Bool) {code : UInt8} (plain : IsPlainOpcode code)
    (rest : List UInt8) : nextInstruction enforceMinimal (code :: rest) = some (.ok (.op code, rest)) := by
  unfold IsPlainOpcode at plain
  have direct : ¬code < opPushdata1 := by rw [UInt8.lt_iff_toNat]; show ¬code.toNat < 76; omega
  have one : code ≠ opPushdata1 := by rw [Ne, UInt8.eq_iff_toNat]; show ¬code.toNat = 76; omega
  have two : code ≠ opPushdata2 := by rw [Ne, UInt8.eq_iff_toNat]; show ¬code.toNat = 77; omega
  have four : code ≠ opPushdata4 := by rw [Ne, UInt8.eq_iff_toNat]; show ¬code.toNat = 78; omega
  simp [nextInstruction, direct, one, two, four]

theorem nextInstruction_encode {instruction : Instruction} (encodable : instruction.Encodable)
    (rest : List UInt8) : nextInstruction false (instruction.encode ++ rest) = some (.ok (instruction, rest)) := by
  cases instruction with
  | pushBytes data => exact nextInstruction_push false encodable rest rfl
  | op code => exact nextInstruction_op false encodable rest

theorem instructionsFrom_encodeAll (instructions : List Instruction)
    (encodable : ∀ instruction ∈ instructions, instruction.Encodable) (fuel : Nat)
    (enough : instructions.length ≤ fuel) :
    instructionsFrom false fuel (encodeAll instructions) = .ok instructions := by
  induction instructions generalizing fuel with
  | nil => cases fuel <;> rfl
  | cons first rest ih =>
    obtain ⟨fuel, rfl⟩ : ∃ smaller, fuel = smaller + 1 := ⟨fuel - 1, by simp at enough; omega⟩
    have step := nextInstruction_encode (encodable first (List.mem_cons_self _ _)) (encodeAll rest)
    have tail := ih (fun instruction member => encodable instruction (List.mem_cons_of_mem _ member))
      fuel (by simpa using enough)
    simp only [encodeAll, List.flatMap_cons] at step tail ⊢
    simp [instructionsFrom, step, tail]

/-- A script of pushes and plain opcodes reads back as exactly those instructions. -/
theorem instructions_encodeAll (instructions : List Instruction)
    (encodable : ∀ instruction ∈ instructions, instruction.Encodable) :
    Script.instructions ⟨encodeAll instructions⟩ = .ok instructions :=
  instructionsFrom_encodeAll instructions encodable _ (length_le_encodeAll instructions)

theorem encodeAll_injective {first second : List Instruction}
    (encodableFirst : ∀ instruction ∈ first, instruction.Encodable)
    (encodableSecond : ∀ instruction ∈ second, instruction.Encodable)
    (same : encodeAll first = encodeAll second) : first = second := by
  have readBack := instructions_encodeAll first encodableFirst
  rw [same, instructions_encodeAll second encodableSecond] at readBack
  exact (Except.ok.inj readBack).symm

/-! ## Standard output scripts -/

/-- `OP_HASH160 <20 bytes> OP_EQUAL`. -/
def Script.isP2sh (script : Script) : Bool :=
  script.bytes.length == 23 && script.bytes[0]? == some opHash160 &&
    script.bytes[1]? == some opPushbytes20 && script.bytes[22]? == some opEqual

/-- `OP_DUP OP_HASH160 <20 bytes> OP_EQUALVERIFY OP_CHECKSIG`. -/
def Script.isP2pkh (script : Script) : Bool :=
  script.bytes.length == 25 && script.bytes[0]? == some opDup && script.bytes[1]? == some opHash160 &&
    script.bytes[2]? == some opPushbytes20 && script.bytes[23]? == some opEqualVerify &&
    script.bytes[24]? == some opChecksig

/-- A version push (`OP_0` or `OP_1` to `OP_16`) followed by one direct push of 2 to 40 bytes. -/
def Script.isWitnessProgram (script : Script) : Bool :=
  let version := script.bytes.headD 0
  let size := script.bytes.getD 1 0
  4 ≤ script.bytes.length && script.bytes.length ≤ 42 &&
    (version == 0 || (opPushnum1 ≤ version && version ≤ opPushnum16)) &&
    2 ≤ size.toNat && size.toNat ≤ 40 && script.bytes.length - 2 == size.toNat

theorem Script.length_of_isP2sh {script : Script} (p2sh : script.isP2sh) : script.bytes.length = 23 := by
  simp only [isP2sh, Bool.and_eq_true, beq_iff_eq] at p2sh
  exact p2sh.1.1.1

theorem Script.length_of_isP2pkh {script : Script} (p2pkh : script.isP2pkh) : script.bytes.length = 25 := by
  simp only [isP2pkh, Bool.and_eq_true, beq_iff_eq] at p2pkh
  exact p2pkh.1.1.1.1.1

/-- A pay-to-script-hash script is `OP_HASH160`, a push of the twenty bytes after it, and `OP_EQUAL`. -/
theorem Script.bytes_of_isP2sh {script : Script} (p2sh : script.isP2sh) :
    script.bytes = opHash160 :: opPushbytes20 :: (script.bytes.drop 2).take 20 ++ [opEqual] := by
  obtain ⟨bytes⟩ := script
  simp only [isP2sh, Bool.and_eq_true, beq_iff_eq] at p2sh
  obtain ⟨⟨⟨length, first⟩, second⟩, last⟩ := p2sh
  rcases bytes with _ | ⟨b0, _ | ⟨b1, rest⟩⟩
  · cases length
  · cases length
  · simp only [List.length_cons] at length
    simp only [List.getElem?_cons_zero, Option.some.injEq, List.getElem?_cons_succ] at first second last
    subst first second
    have closing : rest.drop 20 = [opEqual] := by
      rw [List.drop_eq_getElem_cons (by omega), List.drop_of_length_le (by omega)]
      simp [List.getElem?_eq_getElem (show 20 < rest.length by omega)] at last
      rw [last]
    simp [← closing]

end PtokensCore.Bitcoin

import Mathlib.Data.Nat.Digits
import Mathlib.Data.String.Basic

/-! Rust values as the enclave's code sees them.

A call of the Rust code ends in `Ok`, in an `Err` the caller can match on, or in a panic
(an out-of-range slice, a failed `assert_eq!`, an explicit `panic!`) that aborts the
enclave. The model keeps the two failures apart, so that "returns `Ok` or `Err`" can be
stated. Byte strings are lists of `UInt8`; fixed-width integers are read and written
little-endian, as `to_le_bytes` and the consensus encoder do.
-/

set_option autoImplicit false

namespace PtokensCore

/-- Results are compared in statements about fixed inputs. -/
instance decidableEqExcept {ε α : Type} [DecidableEq ε] [DecidableEq α] : DecidableEq (Except ε α)
  | .ok a, .ok b => decidable_of_iff (a = b) ⟨congrArg _, Except.ok.inj⟩
  | .error a, .error b => decidable_of_iff (a = b) ⟨congrArg _, Except.error.inj⟩
  | .ok _, .error _ => isFalse Except.noConfusion
  | .error _, .ok _ => isFalse Except.noConfusion

@[simp] theorem Except.ok_bind {ε α β : Type} (value : α) (next : α → Except ε β) :
    (Except.ok value >>= next) = next value := rfl

@[simp] theorem Except.error_bind {ε α β : Type} (e : ε) (next : α → Except ε β) :
    (Except.error e >>= next) = Except.error e := rfl

@[simp] theorem Except.pure_eq_ok {ε α : Type} (value : α) : (pure value : Except ε α) = .ok value := rfl

theorem Except.bind_eq_ok {ε α β : Type} {first : Except ε α} {next : α → Except ε β} {value : β} :
    first >>= next = .ok value ↔ ∃ middle, first = .ok middle ∧ next middle = .ok value := by
  cases first <;> simp

/-- How a call that does not return a value ends. -/
inductive Fault (ε : Type) where
  | error (e : ε)
  | panic (message : String)
  deriving DecidableEq, Repr

/-- The panic of an index past the end of a slice or a `Vec`. -/
def indexOutOfBounds (len index : Nat) : String :=
  "index out of bounds: the len is " ++ toString len ++ " but the index is " ++ toString index

/-- `From::from` applied by `?` to the error of a call, a panic passing through. -/
def Fault.map {ε ε' : Type} (convert : ε → ε') : Fault ε → Fault ε'
  | .error e => .error (convert e)
  | .panic message => .panic message

/-- The `?` operator at a call whose error type differs from the caller's. -/
def lift {ε ε' α : Type} (convert : ε → ε') (result : Except (Fault ε) α) : Except (Fault ε') α :=
  result.mapError (Fault.map convert)

@[simp] theorem lift_ok {ε ε' α : Type} (convert : ε → ε') (value : α) :
    lift convert (.ok value : Except (Fault ε) α) = .ok value := rfl

@[simp] theorem lift_error {ε ε' α : Type} (convert : ε → ε') (e : ε) :
    lift convert (.error (.error e) : Except (Fault ε) α) = .error (.error (convert e)) := rfl

@[simp] theorem lift_panic {ε ε' α : Type} (convert : ε → ε') (message : String) :
    lift convert (.error (.panic message) : Except (Fault ε) α) = .error (.panic message) := rfl

/-- `Iterator::filter` with a test that may panic: the first panic ends the whole call. -/
def filterOrPanic {ε α : Type} (keep : α → Except (Fault ε) Bool) : List α → Except (Fault ε) (List α)
  | [] => .ok []
  | item :: rest => do
    let kept ← keep item
    let others ← filterOrPanic keep rest
    pure (if kept then item :: others else others)

theorem filterOrPanic_of_ok {ε α : Type} (keep : α → Except (Fault ε) Bool) (test : α → Bool) (items : List α)
    (total : ∀ item ∈ items, keep item = .ok (test item)) : filterOrPanic keep items = .ok (items.filter test) := by
  induction items with
  | nil => rfl
  | cons item rest ih =>
    have tail := ih (fun other member => total other (List.mem_cons_of_mem _ member))
    simp only [filterOrPanic, total item (List.mem_cons_self _ _), tail, List.filter_cons]
    cases test item <;> rfl

/-- `filterOrPanic` returns exactly when every test returns. -/
theorem filterOrPanic_ok_iff {ε α : Type} (keep : α → Except (Fault ε) Bool) (items : List α) :
    (∃ kept, filterOrPanic keep items = .ok kept) ↔ ∀ item ∈ items, ∃ kept, keep item = .ok kept := by
  induction items with
  | nil => simp [filterOrPanic]
  | cons item rest ih =>
    rw [List.forall_mem_cons, ← ih]
    cases first : keep item <;> cases others : filterOrPanic keep rest <;> simp [filterOrPanic, first, others]

/-- A failing `filterOrPanic` fails as one of its tests does. -/
theorem filterOrPanic_error {ε α : Type} {keep : α → Except (Fault ε) Bool} {items : List α} {fault : Fault ε}
    (failed : filterOrPanic keep items = .error fault) : ∃ item ∈ items, keep item = .error fault := by
  induction items with
  | nil => cases failed
  | cons item rest ih =>
    cases first : keep item with
    | error e =>
      simp only [filterOrPanic, first, Except.error_bind] at failed
      cases failed
      exact ⟨item, List.mem_cons_self _ _, first⟩
    | ok kept =>
      cases others : filterOrPanic keep rest with
      | error e =>
        simp only [filterOrPanic, first, others, Except.ok_bind, Except.error_bind] at failed
        cases failed
        obtain ⟨other, mem, failing⟩ := ih others
        exact ⟨other, List.mem_cons_of_mem _ mem, failing⟩
      | ok others' => simp [filterOrPanic, first, others] at failed

/-- `slice[start..stop]`, or the panic of a range out of bounds. -/
def sliceRange {ε α : Type} (slice : List α) (start stop : Nat) : Except (Fault ε) (List α) :=
  if stop < start then .error (.panic ("slice index starts at " ++ toString start ++ " but ends at " ++ toString stop))
  else if slice.length < stop then
    .error (.panic ("range end index " ++ toString stop ++ " out of range for slice of length " ++
      toString slice.length))
  else .ok ((slice.drop start).take (stop - start))

theorem sliceRange_of_le {ε α : Type} (slice : List α) {start stop : Nat} (ordered : start ≤ stop)
    (within : stop ≤ slice.length) :
    sliceRange (ε := ε) slice start stop = .ok ((slice.drop start).take (stop - start)) := by
  simp [sliceRange, Nat.not_lt.mpr ordered, Nat.not_lt.mpr within]

theorem sliceRange_of_lt {ε α : Type} (slice : List α) {start stop : Nat} (ordered : start ≤ stop)
    (beyond : slice.length < stop) :
    sliceRange (ε := ε) slice start stop = .error (.panic ("range end index " ++ toString stop ++
      " out of range for slice of length " ++ toString slice.length)) := by
  simp [sliceRange, Nat.not_lt.mpr ordered, beyond]

/-- `[u8; n]`, and the hash and address types built on it. -/
structure FixedBytes (n : Nat) where
  bytes : List UInt8
  length_eq : bytes.length = n
  deriving DecidableEq

instance {n : Nat} : Hashable (FixedBytes n) := ⟨fun value => hash value.bytes⟩

/-- `from_slice`: a slice of exactly `n` bytes, or the length error. -/
def FixedBytes.fromSlice? {n : Nat} (slice : List UInt8) : Option (FixedBytes n) :=
  if same : slice.length = n then some ⟨slice, same⟩ else none

@[simp] theorem FixedBytes.fromSlice?_bytes {n : Nat} (value : FixedBytes n) :
    FixedBytes.fromSlice? value.bytes = some value := by
  simp [fromSlice?, value.length_eq]

theorem FixedBytes.bytes_injective {n : Nat} : Function.Injective (FixedBytes.bytes (n := n)) := by
  rintro ⟨first, _⟩ ⟨second, _⟩ same
  cases same
  rfl

/-! ## Little-endian integers -/

/-- The `width` low bytes of `value`, least significant first (`to_le_bytes`, truncated as `as u8` does). -/
def toLeBytes : Nat → Nat → List UInt8
  | 0, _ => []
  | width + 1, value => UInt8.ofNat value :: toLeBytes width (value / 256)

/-- The value of little-endian bytes. -/
def fromLeBytes : List UInt8 → Nat
  | [] => 0
  | byte :: rest => byte.toNat + 256 * fromLeBytes rest

@[simp] theorem UInt8.toNat_ofNat' (value : Nat) : (UInt8.ofNat value).toNat = value % 256 := rfl

@[simp] theorem UInt32.toNat_ofNat' (value : Nat) : (UInt32.ofNat value).toNat = value % 2 ^ 32 := rfl

@[simp] theorem UInt64.toNat_ofNat' (value : Nat) : (UInt64.ofNat value).toNat = value % 2 ^ 64 := rfl

@[simp] theorem UInt8.ofNat_toNat' (value : UInt8) : UInt8.ofNat value.toNat = value :=
  UInt8.ext (by simp [UInt8.toNat, UInt8.ofNat])

@[simp] theorem UInt32.ofNat_toNat' (value : UInt32) : UInt32.ofNat value.toNat = value :=
  UInt32.ext (by simp [UInt32.toNat, UInt32.ofNat])

@[simp] theorem UInt64.ofNat_toNat' (value : UInt64) : UInt64.ofNat value.toNat = value :=
  UInt64.ext (by simp [UInt64.toNat, UInt64.ofNat])

@[simp] theorem UInt8.size_eq : UInt8.size = 256 := rfl

theorem UInt8.lt_iff_toNat {a b : UInt8} : a < b ↔ a.toNat < b.toNat := Iff.rfl

theorem UInt8.eq_iff_toNat {a b : UInt8} : a = b ↔ a.toNat = b.toNat := UInt8.ext_iff

@[simp] theorem length_toLeBytes (width value : Nat) : (toLeBytes width value).length = width := by
  induction width generalizing value with
  | zero => rfl
  | succ width ih => simp [toLeBytes, ih]

theorem fromLeBytes_toLeBytes (width value : Nat) :
    fromLeBytes (toLeBytes width value) = value % 256 ^ width := by
  induction width generalizing value with
  | zero => simp [toLeBytes, fromLeBytes, Nat.mod_one]
  | succ width ih =>
    simp only [toLeBytes, fromLeBytes, UInt8.toNat_ofNat', ih, Nat.pow_succ', Nat.mod_mul]

theorem fromLeBytes_lt (bytes : List UInt8) : fromLeBytes bytes < 256 ^ bytes.length := by
  induction bytes with
  | nil => simp [fromLeBytes]
  | cons byte rest ih =>
    have := byte.toNat_lt
    simp only [fromLeBytes, List.length_cons, Nat.pow_succ]
    omega

/-- Read a `width`-byte little-endian integer off the front of `bytes`. -/
def readLe (width : Nat) (bytes : List UInt8) : Option (Nat × List UInt8) :=
  if width ≤ bytes.length then some (fromLeBytes (bytes.take width), bytes.drop width) else none

theorem readLe_toLeBytes (width value : Nat) (rest : List UInt8) (fits : value < 256 ^ width) :
    readLe width (toLeBytes width value ++ rest) = some (value, rest) := by
  simp [readLe, fromLeBytes_toLeBytes, Nat.mod_eq_of_lt fits]

theorem toLeBytes_fromLeBytes (bytes : List UInt8) : toLeBytes bytes.length (fromLeBytes bytes) = bytes := by
  induction bytes with
  | nil => rfl
  | cons byte rest ih =>
    have := byte.toNat_lt
    have low : (byte.toNat + 256 * fromLeBytes rest) % 256 = byte.toNat := by omega
    have high : (byte.toNat + 256 * fromLeBytes rest) / 256 = fromLeBytes rest := by omega
    simp only [List.length_cons, toLeBytes, fromLeBytes, high, ih, List.cons.injEq, and_true]
    exact UInt8.ext (by simp [low])

/-- Whatever `readLe` reads was written by `toLeBytes`: a little-endian integer has one encoding. -/
theorem readLe_ok {width value : Nat} {bytes rest : List UInt8} (read : readLe width bytes = some (value, rest)) :
    bytes = toLeBytes width value ++ rest ∧ value < 256 ^ width := by
  unfold readLe at read
  split_ifs at read with long
  cases read
  have length : (bytes.take width).length = width := List.length_take_of_le long
  have bytesBack := toLeBytes_fromLeBytes (bytes.take width)
  have bound := fromLeBytes_lt (bytes.take width)
  rw [length] at bytesBack bound
  exact ⟨by rw [bytesBack, List.take_append_drop], bound⟩

end PtokensCore

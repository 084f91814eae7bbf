import PtokensCore.Btc.Types

/-! The integer codec of `utils.rs`, which the BTC and ETH sides both store numbers with.

`utils.rs` is not among the sources; the spec fixes the encoding: eight bytes.
-/

set_option autoImplicit false

namespace PtokensCore

open PtokensCore.Btc

/-- `convert_u64_to_bytes`. Modelled from the spec: the eight bytes of the integer, least
significant first (`to_le_bytes`); `utils.rs` is not among the sources. -/
def convertU64ToBytes (value : UInt64) : List UInt8 := toLeBytes 8 value.toNat

/-- `convert_bytes_to_u64`. Modelled from the spec: exactly eight bytes, least significant
first; the text of the error is not known and names the count. -/
def convertBytesToU64 (bytes : List UInt8) : Result UInt64 :=
  if bytes.length = 8 then .ok (UInt64.ofNat (fromLeBytes bytes))
  else .error (.error (.custom ("cannot convert " ++ toString bytes.length ++ " bytes to u64")))

theorem convertBytesToU64_convertU64ToBytes (value : UInt64) :
    convertBytesToU64 (convertU64ToBytes value) = .ok value := by
  have fits : value.toNat < 256 ^ 8 := value.toNat_lt
  simp only [convertBytesToU64, convertU64ToBytes, length_toLeBytes, fromLeBytes_toLeBytes, Nat.mod_eq_of_lt fits,
    UInt64.ofNat_toNat', if_pos]

/-- Eight bytes are the only input `convert_bytes_to_u64` accepts, so what it reads is written back as read. -/
theorem eq_convertU64ToBytes_of_convertBytesToU64 {bytes : List UInt8} {value : UInt64}
    (read : convertBytesToU64 bytes = .ok value) : bytes = convertU64ToBytes value := by
  unfold convertBytesToU64 at read
  split_ifs at read with eight
  cases read
  have fits := fromLeBytes_lt bytes
  have back := toLeBytes_fromLeBytes bytes
  rw [eight] at fits back
  simpa [convertU64ToBytes, Nat.mod_eq_of_lt (show fromLeBytes bytes < 18446744073709551616 by simpa using fits)]
    using back.symm

end PtokensCore

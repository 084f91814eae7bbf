import Mathlib.Data.Nat.Digits

/-! Digit strings written most significant digit first, as the text and byte codecs of the
crate write numbers: the value they spell, the zeros they start with, and the fact that
a digit string is determined by those two.
-/

set_option autoImplicit false

namespace PtokensCore

open Nat (digits ofDigits)

/-- The number that big-endian digits in base `base` spell. -/
def bigEndian (base : Nat) (digits : List Nat) : Nat := ofDigits base digits.reverse

/-- How many zero digits a digit string starts with. -/
def leadingZeros (digits : List Nat) : Nat := (digits.takeWhile (· == 0)).length

section DigitStrings

variable {base : Nat}

@[simp] theorem bigEndian_nil : bigEndian base [] = 0 := rfl

theorem bigEndian_cons (digit : Nat) (rest : List Nat) :
    bigEndian base (digit :: rest) = bigEndian base rest + base ^ rest.length * digit := by
  simp [bigEndian, Nat.ofDigits_append]

theorem bigEndian_lt (hb : 1 < base) {digits : List Nat} (small : ∀ d ∈ digits, d < base) :
    bigEndian base digits < base ^ digits.length := by
  simpa [bigEndian] using Nat.ofDigits_lt_base_pow_length hb (l := digits.reverse) (by simpa using small)

theorem reverse_digits_ne_zero (value : Nat) : (digits base value).reverse.head? ≠ some 0 := by
  rcases Nat.eq_zero_or_pos value with rfl | pos
  · simp
  · rw [List.head?_reverse, List.getLast?_eq_getLast _ (Nat.digits_ne_nil_iff_ne_zero.mpr pos.ne')]
    simpa using Nat.getLast_digit_ne_zero base pos.ne'

/-- Zeros in front of a digit string without a leading zero: the three views of it. -/
theorem takeWhile_replicate_append {α : Type} [DecidableEq α] (a : α) (count : Nat) {rest : List α}
    (h : rest.head? ≠ some a) : (List.replicate count a ++ rest).takeWhile (· == a) = List.replicate count a := by
  induction count with
  | zero => cases rest with
    | nil => rfl
    | cons d rest => simp_all
  | succ count ih => simpa [List.replicate_succ] using ih

theorem leadingZeros_replicate_append (count : Nat) {rest : List Nat} (h : rest.head? ≠ some 0) :
    leadingZeros (List.replicate count 0 ++ rest) = count := by
  rw [leadingZeros, takeWhile_replicate_append 0 count h, List.length_replicate]

theorem dropWhile_replicate_append (count : Nat) {rest : List Nat} (h : rest.head? ≠ some 0) :
    (List.replicate count 0 ++ rest).dropWhile (· == 0) = rest := by
  induction count with
  | zero => cases rest with
    | nil => rfl
    | cons d rest => simp_all
  | succ count ih => simpa [List.replicate_succ] using ih

theorem bigEndian_replicate_append (count : Nat) (rest : List Nat) :
    bigEndian base (List.replicate count 0 ++ rest) = bigEndian base rest := by
  induction count with
  | zero => rfl
  | succ count ih => simp [List.replicate_succ, bigEndian_cons, ih]

theorem bigEndian_replicate (count : Nat) : bigEndian base (List.replicate count 0) = 0 := by
  simpa using @bigEndian_replicate_append base count []

theorem bigEndian_reverse_digits (value : Nat) : bigEndian base (digits base value).reverse = value := by
  simp [bigEndian, Nat.ofDigits_digits]

theorem leadingZeros_cons_zero (rest : List Nat) : leadingZeros (0 :: rest) = leadingZeros rest + 1 := by
  simp [leadingZeros]

/-- Every digit string is its leading zeros followed by the digits of its value. -/
theorem eq_replicate_append_digits (hb : 1 < base) {digits : List Nat} (small : ∀ d ∈ digits, d < base) :
    digits = List.replicate (leadingZeros digits) 0 ++ (Nat.digits base (bigEndian base digits)).reverse := by
  induction digits with
  | nil => simp [leadingZeros]
  | cons d rest ih =>
    by_cases zero : d = 0
    · subst zero
      rw [leadingZeros_cons_zero, bigEndian_cons, mul_zero, add_zero, List.replicate_succ, List.cons_append,
        ← ih (fun x mem => small x (List.mem_cons_of_mem _ mem))]
    · have : leadingZeros (d :: rest) = 0 := by simp [leadingZeros, zero]
      rw [this, List.replicate_zero, List.nil_append, bigEndian,
        Nat.digits_ofDigits base hb _ (fun x mem => small x (List.mem_reverse.mp mem)) (by simp [zero]),
        List.reverse_reverse]

end DigitStrings

end PtokensCore

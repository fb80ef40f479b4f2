import Crashomon.Base.Text

/-! Decimal numerals as the C library reads them: strtoul, strtoull and strtol on strings
of bytes, which saturate, and the integer types that their results are cast to. -/

namespace Crashomon.Numerals

/-- The sizes of `long`; an `int` has 32 bits and a `long long` 64 in both. -/
inductive DataModel where
  | ilp32
  | lp64
  deriving DecidableEq, Repr

def DataModel.longBits : DataModel → Nat
  | .ilp32 => 32
  | .lp64 => 64

def IsSpace (byte : UInt8) : Prop := byte = 32 ∨ 9 ≤ byte ∧ byte ≤ 13

def IsDigit (byte : UInt8) : Prop := 48 ≤ byte ∧ byte ≤ 57

instance (byte : UInt8) : Decidable (IsSpace byte) := inferInstanceAs (Decidable (_ ∨ _))

instance (byte : UInt8) : Decidable (IsDigit byte) := inferInstanceAs (Decidable (_ ∧ _))

def decimal (digits : ByteString) : Nat := digits.foldl (fun value digit => 10 * value + (digit.toNat - 48)) 0

/-- A sign, the digits after it, and what the end pointer is left at. -/
structure Numeral where
  negative : Bool
  magnitude : Nat
  rest : ByteString
  deriving DecidableEq, Repr

def sign : ByteString → Bool × ByteString
  | 45 :: rest => (true, rest)
  | 43 :: rest => (false, rest)
  | rest => (false, rest)

/-- Nothing where no conversion is made; the end pointer is then the start. -/
def scan (str : ByteString) : Option Numeral :=
  let (negative, text) := sign (str.dropWhile fun byte => IsSpace byte)
  let digits := text.takeWhile fun byte => IsDigit byte
  if digits = [] then none else some ⟨negative, decimal digits, text.dropWhile fun byte => IsDigit byte⟩

/-- `strtoul(str, &end, 10)` for a type of so many bits. A minus sign negates within the type. -/
def strtoul (bits : Nat) (str : ByteString) : Option (Nat × ByteString) :=
  (scan str).map fun numeral =>
    (if 2 ^ bits ≤ numeral.magnitude then 2 ^ bits - 1
      else if numeral.negative then (2 ^ bits - numeral.magnitude) % 2 ^ bits else numeral.magnitude, numeral.rest)

/-- `strtol(str, &end, 10)` -/
def strtol (bits : Nat) (str : ByteString) : Option (Int × ByteString) :=
  (scan str).map fun numeral =>
    (if numeral.negative then max (-numeral.magnitude) (-2 ^ (bits - 1)) else min numeral.magnitude (2 ^ (bits - 1) - 1), numeral.rest)

/-- The value of a cast to `int`. -/
def castInt (value : Int) : Int := (value + 2 ^ 31) % 2 ^ 32 - 2 ^ 31

section Digits
variable {digits rest : ByteString}

theorem not_isSpace_of_isDigit {byte : UInt8} (digit : IsDigit byte) : ¬ IsSpace byte := by
  obtain ⟨low, high⟩ := digit
  rw [UInt8.le_iff_toNat_le] at low high
  rintro (space | ⟨first, last⟩)
  · subst space
    exact absurd low (by decide)
  · rw [UInt8.le_iff_toNat_le] at last
    exact absurd (Nat.le_trans low last) (by decide)

theorem sign_of_isDigit {byte : UInt8} (digit : IsDigit byte) : sign (byte :: rest) = (false, byte :: rest) := by
  obtain ⟨low, high⟩ := digit
  unfold sign
  split
  next same =>
    cases same
    exact absurd low (by decide)
  next same =>
    cases same
    exact absurd low (by decide)
  next => rfl

/-- Digits are read to the first byte that is none. -/
theorem scan_digits (numeral : ∀ byte ∈ digits, IsDigit byte) (present : digits ≠ []) (ends : ∀ byte ∈ rest.head?, ¬ IsDigit byte) :
    scan (digits ++ rest) = some ⟨false, decimal digits, rest⟩ := by
  obtain ⟨first, others, rfl⟩ := List.exists_cons_of_ne_nil present
  have digit := numeral first List.mem_cons_self
  have kept : (first :: others ++ rest).dropWhile (fun byte => IsSpace byte) = first :: others ++ rest :=
    List.dropWhile_cons_of_neg (by simpa using not_isSpace_of_isDigit digit)
  have stops : rest.takeWhile (fun byte => IsDigit byte) = [] ∧ rest.dropWhile (fun byte => IsDigit byte) = rest := by
    cases rest with
    | nil => exact ⟨rfl, rfl⟩
    | cons byte rest =>
      have other : ¬ IsDigit byte := ends byte (by simp)
      exact ⟨List.takeWhile_cons_of_neg (by simpa using other), List.dropWhile_cons_of_neg (by simpa using other)⟩
  have all : ∀ byte ∈ first :: others, decide (IsDigit byte) = true := fun byte member => decide_eq_true (numeral byte member)
  rw [scan, kept, List.cons_append, sign_of_isDigit digit]
  dsimp only
  rw [← List.cons_append, List.takeWhile_append_of_pos all, stops.1, List.append_nil, if_neg (List.cons_ne_nil _ _),
    List.dropWhile_append_of_pos all, stops.2]

theorem scan_no_digits (ends : ∀ byte ∈ rest.head?, ¬ IsSpace byte ∧ ¬ IsDigit byte ∧ byte ≠ 45 ∧ byte ≠ 43) : scan rest = none := by
  cases rest with
  | nil => rfl
  | cons byte rest =>
    obtain ⟨space, digit, minus, plus⟩ := ends byte (by simp)
    have kept : (byte :: rest).dropWhile (fun byte => IsSpace byte) = byte :: rest :=
      List.dropWhile_cons_of_neg (by simpa using space)
    have unsigned : sign (byte :: rest) = (false, byte :: rest) := by
      unfold sign
      split
      next same =>
        cases same
        exact absurd rfl minus
      next same =>
        cases same
        exact absurd rfl plus
      next => rfl
    have stops : (byte :: rest).takeWhile (fun byte => IsDigit byte) = [] := List.takeWhile_cons_of_neg (by simpa using digit)
    rw [scan, kept, unsigned]
    dsimp only
    rw [stops, if_pos rfl]

theorem strtoul_digits (bits : Nat) (numeral : ∀ byte ∈ digits, IsDigit byte) (present : digits ≠ [])
    (ends : ∀ byte ∈ rest.head?, ¬ IsDigit byte) :
    strtoul bits (digits ++ rest) = some (min (decimal digits) (2 ^ bits - 1), rest) := by
  have positive := Nat.two_pow_pos bits
  rw [strtoul, scan_digits numeral present ends, Option.map_some]
  dsimp only
  split
  next large => rw [Nat.min_eq_right (by omega)]
  next => rw [if_neg (by decide), Nat.min_eq_left (by omega)]

theorem strtol_digits (bits : Nat) (numeral : ∀ byte ∈ digits, IsDigit byte) (present : digits ≠ []) :
    strtol bits digits = some (min (decimal digits : Int) (2 ^ (bits - 1) - 1), []) := by
  have scanned : scan (digits ++ []) = some ⟨false, decimal digits, []⟩ := scan_digits numeral present (by simp)
  rw [List.append_nil] at scanned
  rw [strtol, scanned, Option.map_some]
  rfl

end Digits

/-- A saturated numeral times a unit, in a type no wider than the first: it is exact, or zero, just where it fits, or
where it has not been saturated and wraps to zero. -/
theorem scaled_exact_iff {value unit bits wide : Nat} (positive : 0 < unit) (small : unit < 2 ^ bits) (within : bits ≤ wide) :
    (min value (2 ^ wide - 1) * unit % 2 ^ bits = value * unit ∨ min value (2 ^ wide - 1) * unit % 2 ^ bits = 0) ↔
      value * unit < 2 ^ bits ∨ value < 2 ^ wide ∧ 2 ^ bits ∣ value * unit := by
  have room := Nat.two_pow_pos wide
  have modulus := Nat.two_pow_pos bits
  by_cases saturated : 2 ^ wide ≤ value
  · have narrow : 2 ^ bits ≤ 2 ^ wide := Nat.pow_le_pow_right (by decide) within
    have large : 2 ^ bits ≤ value * unit := Nat.le_trans narrow (Nat.le_trans saturated (Nat.le_mul_of_pos_right _ positive))
    have remainder : min value (2 ^ wide - 1) * unit % 2 ^ bits = 2 ^ bits - unit := by
      obtain ⟨factor, same⟩ := pow_dvd_pow 2 within
      have factor_positive : 0 < factor := by
        rcases Nat.eq_zero_or_pos factor with rfl | above
        · omega
        · exact above
      have split_off : (2 ^ wide - 1) * unit = 2 ^ bits * (factor * unit - 1) + (2 ^ bits - unit) := by
        have product : 1 ≤ factor * unit := Nat.mul_pos factor_positive positive
        have whole : 2 ^ bits * (factor * unit - 1) + 2 ^ bits = 2 ^ wide * unit := by
          rw [same, Nat.mul_assoc, ← Nat.mul_succ, Nat.succ_eq_add_one, Nat.sub_add_cancel product]
        rw [Nat.sub_mul, Nat.one_mul]
        omega
      rw [Nat.min_eq_right (by omega), split_off, Nat.mul_add_mod, Nat.mod_eq_of_lt (by omega)]
    omega
  · rw [Nat.min_eq_left (by omega)]
    constructor
    · rintro (same | zero)
      · exact Or.inl (same ▸ Nat.mod_lt _ modulus)
      · exact Or.inr ⟨by omega, Nat.dvd_of_mod_eq_zero zero⟩
    · rintro (fits | ⟨_, divides⟩)
      · exact Or.inl (Nat.mod_eq_of_lt fits)
      · exact Or.inr (Nat.mod_eq_zero_of_dvd divides)

end Crashomon.Numerals

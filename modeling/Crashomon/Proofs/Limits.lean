import Crashomon.Daemon.Arguments
import Crashomon.Lib.Config

/-! The limits and the timeout against the numerals that they are given as. No parser looks at
errno, so a numeral saturates, and no product and no cast is checked. -/

namespace Crashomon.Proofs.Limits
open Numerals Daemon.Arguments Lib.Config

/-- The suffixes of a size, each with its unit. -/
def sizeUnits : List (ByteString × Nat) :=
  [([], 1), (ascii "B", 1), (ascii "K", 1024), (ascii "KB", 1024), (ascii "M", 1024 ^ 2), (ascii "MB", 1024 ^ 2), (ascii "G", 1024 ^ 3),
    (ascii "GB", 1024 ^ 3)]

/-- The suffixes of an age, each with its unit. -/
def ageUnits : List (ByteString × Nat) := [([], 1), (ascii "s", 1), (ascii "h", 3600), (ascii "d", 86400)]

section Scaling
variable {digits suffix : ByteString}

/-- No suffix goes on with the numeral or begins another. -/
theorem suffix_ends {units : List (ByteString × Nat)} {unit : Nat}
    (all : ∀ entry ∈ units, entry.1.head?.all (fun byte => decide (¬ IsSpace byte ∧ ¬ IsDigit byte ∧ byte ≠ 45 ∧ byte ≠ 43)) = true)
    (listed : (suffix, unit) ∈ units) : ∀ byte ∈ suffix.head?, ¬ IsSpace byte ∧ ¬ IsDigit byte ∧ byte ≠ 45 ∧ byte ≠ 43 := by
  intro byte first
  have kept := all _ listed
  rw [Option.mem_def.mp first] at kept
  exact of_decide_eq_true kept

theorem numeral_of_all (all : digits.all (fun byte => decide (IsDigit byte)) = true) : ∀ byte ∈ digits, IsDigit byte :=
  fun byte member => of_decide_eq_true (List.all_eq_true.mp all byte member)

theorem mul64_mul64 (value first second : Nat) : mul64 (mul64 value first) second = value * (first * second) % 2 ^ 64 := by
  rw [mul64, mul64, Nat.mod_mul_mod, Nat.mul_assoc]

theorem mul32_cast (value unit : Nat) : mul32 (value % 2 ^ 32) unit = value * unit % 2 ^ 32 := Nat.mod_mul_mod ..

theorem parseSize_digits (numeral : ∀ byte ∈ digits, IsDigit byte) (present : digits ≠ []) {unit : Nat}
    (listed : (suffix, unit) ∈ sizeUnits) :
    parseSize (some (digits ++ suffix)) = min (decimal digits) (2 ^ 64 - 1) * unit % 2 ^ 64 := by
  have nonempty : digits ++ suffix ≠ [] := List.append_ne_nil_of_left_ne_nil present suffix
  have read := strtoul_digits 64 numeral present fun byte member => (suffix_ends (by decide) listed byte member).2.1
  have bounded : min (decimal digits) (2 ^ 64 - 1) < 2 ^ 64 := by omega
  generalize min (decimal digits) (2 ^ 64 - 1) = val at read bounded ⊢
  simp only [parseSize, if_neg nonempty, read]
  simp only [sizeUnits, List.mem_cons, Prod.mk.injEq, List.not_mem_nil, or_false] at listed
  rcases listed with ⟨rfl, rfl⟩ | ⟨rfl, rfl⟩ | ⟨rfl, rfl⟩ | ⟨rfl, rfl⟩ | ⟨rfl, rfl⟩ | ⟨rfl, rfl⟩ | ⟨rfl, rfl⟩ | ⟨rfl, rfl⟩
  · rw [if_pos (by decide), Nat.mul_one, Nat.mod_eq_of_lt bounded]
  · rw [if_pos (by decide), Nat.mul_one, Nat.mod_eq_of_lt bounded]
  · rw [if_neg (by decide), if_pos (by decide)]
    rfl
  · rw [if_neg (by decide), if_pos (by decide)]
    rfl
  · rw [if_neg (by decide), if_neg (by decide), if_pos (by decide), mul64_mul64]
    rfl
  · rw [if_neg (by decide), if_neg (by decide), if_pos (by decide), mul64_mul64]
    rfl
  · rw [if_neg (by decide), if_neg (by decide), if_neg (by decide), if_pos (by decide), mul64_mul64, mul64, Nat.mod_mul_mod, Nat.mul_assoc]
    rfl
  · rw [if_neg (by decide), if_neg (by decide), if_neg (by decide), if_pos (by decide), mul64_mul64, mul64, Nat.mod_mul_mod, Nat.mul_assoc]
    rfl

theorem parseAge_digits (model : DataModel) (numeral : ∀ byte ∈ digits, IsDigit byte) (present : digits ≠ []) {unit : Nat}
    (listed : (suffix, unit) ∈ ageUnits) :
    parseAge model (some (digits ++ suffix)) = min (decimal digits) (2 ^ model.longBits - 1) * unit % 2 ^ 32 := by
  have nonempty : digits ++ suffix ≠ [] := List.append_ne_nil_of_left_ne_nil present suffix
  have read := strtoul_digits model.longBits numeral present fun byte member => (suffix_ends (by decide) listed byte member).2.1
  generalize min (decimal digits) (2 ^ model.longBits - 1) = val at read ⊢
  simp only [parseAge, if_neg nonempty, read]
  simp only [ageUnits, List.mem_cons, Prod.mk.injEq, List.not_mem_nil, or_false] at listed
  rcases listed with ⟨rfl, rfl⟩ | ⟨rfl, rfl⟩ | ⟨rfl, rfl⟩ | ⟨rfl, rfl⟩
  · rw [if_pos (by decide), Nat.mul_one]
  · rw [if_pos (by decide), Nat.mul_one]
  · rw [if_neg (by decide), if_pos (by decide)]
    exact mul32_cast val 3600
  · rw [if_neg (by decide), if_neg (by decide), if_pos (by decide)]
    exact mul32_cast val 86400

end Scaling

/-- A limit in so many bits is the numeral times its unit, or 0, just where the product fits, or where the numeral itself
fits in its own type and the product wraps to 0. -/
def Fits (bits wide value unit : Nat) : Prop := value * unit < 2 ^ bits ∨ value < 2 ^ wide ∧ 2 ^ bits ∣ value * unit

/-- A timeout fits in an `int`, or its low 32 bits happen to be the default. -/
def TimeoutFits (model : DataModel) (value : Nat) : Prop :=
  value < 2 ^ 31 ∨ value < 2 ^ (model.longBits - 1) ∧ value % 2 ^ 32 = 3

theorem size_exact_iff {digits suffix : ByteString} (numeral : ∀ byte ∈ digits, IsDigit byte) {unit : Nat}
    (listed : (suffix, unit) ∈ sizeUnits) :
    (parseSize (some (digits ++ suffix)) = decimal digits * unit ∨ parseSize (some (digits ++ suffix)) = 0) ↔
      Fits 64 64 (decimal digits) unit := by
  by_cases present : digits = []
  · have rejected : parseSize (some suffix) = 0 := by
      simp only [parseSize, strtoul, scan_no_digits (suffix_ends (by decide) listed), Option.map_none, ite_self]
    rw [present, List.nil_append, rejected]
    exact iff_of_true (Or.inr rfl) (Or.inl (by simp [decimal]))
  · have unit_bounds : ∀ entry ∈ sizeUnits, 0 < entry.2 ∧ entry.2 < 2 ^ 64 := by decide
    obtain ⟨positive, small⟩ := unit_bounds _ listed
    rw [parseSize_digits numeral present listed]
    exact scaled_exact_iff positive small (Nat.le_refl 64)

theorem age_exact_iff (model : DataModel) {digits suffix : ByteString} (numeral : ∀ byte ∈ digits, IsDigit byte) {unit : Nat}
    (listed : (suffix, unit) ∈ ageUnits) :
    (parseAge model (some (digits ++ suffix)) = decimal digits * unit ∨ parseAge model (some (digits ++ suffix)) = 0) ↔
      Fits 32 model.longBits (decimal digits) unit := by
  by_cases present : digits = []
  · have rejected : parseAge model (some suffix) = 0 := by
      simp only [parseAge, strtoul, scan_no_digits (suffix_ends (by decide) listed), Option.map_none, ite_self]
    rw [present, List.nil_append, rejected]
    exact iff_of_true (Or.inr rfl) (Or.inl (by simp [decimal]))
  · have unit_bounds : ∀ entry ∈ ageUnits, 0 < entry.2 ∧ entry.2 < 2 ^ 32 := by decide
    obtain ⟨positive, small⟩ := unit_bounds _ listed
    rw [parseAge_digits model numeral present listed]
    exact scaled_exact_iff positive small (by cases model <;> decide)

theorem timeout_exact_iff (model : DataModel) {digits : ByteString} (numeral : ∀ byte ∈ digits, IsDigit byte) :
    (resolveTimeout model (some digits) = decimal digits ∨ resolveTimeout model (some digits) = kDefaultConnectTimeoutSec) ↔
      TimeoutFits model (decimal digits) := by
  by_cases present : digits = []
  · subst present
    exact iff_of_true (Or.inr rfl) (Or.inl (by decide))
  · have read := strtol_digits model.longBits numeral present
    have positive : (0 : Int) ≤ min (decimal digits : Int) (2 ^ (model.longBits - 1) - 1) := by
      cases model <;> simp only [DataModel.longBits] <;> omega
    simp only [resolveTimeout, read, true_and, if_pos positive]
    unfold TimeoutFits castInt kDefaultConnectTimeoutSec
    cases model <;> simp only [DataModel.longBits] <;> omega

/-- The three parsers are exact or reject for exactly the numerals that fit. -/
theorem limits_exact_iff (model : DataModel) (digits : ByteString) (numeral : ∀ byte ∈ digits, IsDigit byte) :
    (∀ suffix unit, (suffix, unit) ∈ sizeUnits →
      ((parseSize (some (digits ++ suffix)) = decimal digits * unit ∨ parseSize (some (digits ++ suffix)) = 0) ↔
        Fits 64 64 (decimal digits) unit)) ∧
    (∀ suffix unit, (suffix, unit) ∈ ageUnits →
      ((parseAge model (some (digits ++ suffix)) = decimal digits * unit ∨ parseAge model (some (digits ++ suffix)) = 0) ↔
        Fits 32 model.longBits (decimal digits) unit)) ∧
    ∀ getEnv, getEnv (ascii "CRASHOMON_CONNECT_TIMEOUT_SEC") = some digits →
      ((((resolve model getEnv).connectTimeoutSec = decimal digits ∨ (resolve model getEnv).connectTimeoutSec = kDefaultConnectTimeoutSec)) ↔
        TimeoutFits model (decimal digits)) := by
  refine ⟨fun _ _ listed => size_exact_iff numeral listed, fun _ _ listed => age_exact_iff model numeral listed, fun getEnv given => ?_⟩
  show (resolveTimeout model (getEnv _) = _ ∨ resolveTimeout model (getEnv _) = _) ↔ _
  rw [given]
  exact timeout_exact_iff model numeral

/-- 100 MiB, 100 days and 100 seconds. -/
theorem hundred_exact :
    (parseSize (some (ascii "100M")) = 100 * 1024 ^ 2 ∨ parseSize (some (ascii "100M")) = 0) ∧
    (parseAge .ilp32 (some (ascii "100d")) = 100 * 86400 ∨ parseAge .ilp32 (some (ascii "100d")) = 0) ∧
    ((resolve .ilp32 fun _ => some (ascii "100")).connectTimeoutSec = 100 ∨
      (resolve .ilp32 fun _ => some (ascii "100")).connectTimeoutSec = kDefaultConnectTimeoutSec) := by
  obtain ⟨size, age, timeout⟩ := limits_exact_iff .ilp32 (ascii "100") (numeral_of_all (by decide))
  exact ⟨(size (ascii "M") (1024 ^ 2) (by decide)).mpr (Or.inl (by decide)),
    (age (ascii "d") 86400 (by decide)).mpr (Or.inl (by decide)),
    (timeout (fun _ => some (ascii "100")) rfl).mpr (Or.inl (by decide))⟩

/-- 16 EiB and 1 GiB become 1 GiB, 136 years become 17 hours, and a timeout of 136 years becomes none. -/
theorem limits_wrap :
    parseSize (some (ascii "17179869185G")) = 1073741824 ∧ parseSize (some (ascii "18446744073709551616")) = 18446744073709551615 ∧
    parseAge .lp64 (some (ascii "49711d")) = 63104 ∧ resolveTimeout .lp64 (some (ascii "4294967296")) = 0 ∧
    ¬ ∀ model digits, (∀ byte ∈ digits, IsDigit byte) →
      (∀ suffix unit, (suffix, unit) ∈ sizeUnits →
        parseSize (some (digits ++ suffix)) = decimal digits * unit ∨ parseSize (some (digits ++ suffix)) = 0) ∧
      (∀ suffix unit, (suffix, unit) ∈ ageUnits →
        parseAge model (some (digits ++ suffix)) = decimal digits * unit ∨ parseAge model (some (digits ++ suffix)) = 0) ∧
      ∀ getEnv, getEnv (ascii "CRASHOMON_CONNECT_TIMEOUT_SEC") = some digits →
        (resolve model getEnv).connectTimeoutSec = decimal digits ∨ (resolve model getEnv).connectTimeoutSec = kDefaultConnectTimeoutSec := by
  refine ⟨by decide +kernel, by decide +kernel, by decide +kernel, by decide +kernel, fun all => ?_⟩
  have aged := (all .lp64 (ascii "49711") (numeral_of_all (by decide))).2.1 (ascii "d") 86400 (by decide)
  exact absurd aged (by decide +kernel)

end Crashomon.Proofs.Limits

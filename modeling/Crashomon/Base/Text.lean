import Mathlib.Algebra.Order.Ring.Nat
import Mathlib.Data.List.Infix

/-! Text as the programs handle it: code points in Python, bytes in C++. -/

namespace Crashomon

abbrev Text := List Char

abbrev ByteString := List UInt8

def ascii (text : String) : ByteString := text.toList.map fun character => UInt8.ofNat character.toNat

/-- The digits of a number as C++ prints them, lower-case. -/
def digits (base value : Nat) : ByteString := (Nat.toDigits base value).map fun digit => UInt8.ofNat digit.toNat

theorem forall_mem_toDigits {holds : Char → Prop} {base : Nat} (large : 1 < base)
    (each : ∀ digit < base, holds (Nat.digitChar digit)) (value : Nat) : ∀ digit ∈ Nat.toDigits base value, holds digit := by
  induction value using Nat.strongRecOn with
  | ind value ih =>
    intro digit member
    rw [Nat.toDigits_eq_if large] at member
    split at member
    next below =>
      rw [List.mem_singleton.mp member]
      exact each value below
    next above =>
      have positive : 0 < value := by omega
      rcases List.mem_append.mp member with front | last
      · exact ih (value / base) (Nat.div_lt_self positive large) digit front
      · rw [List.mem_singleton.mp last]
        exact each _ (Nat.mod_lt value (by omega))

theorem mem_of_lookup [BEq α] [LawfulBEq α] {key : α} {value : β} {entries : List (α × β)}
    (found : entries.lookup key = some value) : (key, value) ∈ entries := by
  obtain ⟨front, back, same, _⟩ := List.lookup_eq_some_iff.mp found
  rw [same]
  exact List.mem_append_right front List.mem_cons_self

/-- Two splits of one text at a separator: the same, or one front goes on behind the other's separator. -/
theorem split_cases {separator : α} {first second front back : List α}
    (same : first ++ separator :: second = front ++ separator :: back) :
    (first = front ∧ second = back) ∨
      (∃ more, front = first ++ separator :: more ∧ second = more ++ separator :: back) ∨
      ∃ more, first = front ++ separator :: more ∧ back = more ++ separator :: second := by
  rcases List.append_eq_append_iff.mp same with ⟨middle, longer, rest⟩ | ⟨middle, longer, rest⟩
  · cases middle with
    | nil =>
      rw [List.nil_append] at rest
      cases rest
      exact Or.inl ⟨by rw [longer, List.append_nil], rfl⟩
    | cons head tail =>
      cases rest
      exact Or.inr (Or.inl ⟨tail, longer, rfl⟩)
  · cases middle with
    | nil =>
      rw [List.nil_append] at rest
      cases rest
      exact Or.inl ⟨by rw [longer, List.append_nil], rfl⟩
    | cons head tail =>
      cases rest
      exact Or.inr (Or.inr ⟨tail, longer, rfl⟩)

/-- What follows the last separator determines the split there. -/
theorem split_at_last {separator : α} {first second front back : List α} (free : separator ∉ second)
    (clean : separator ∉ back) (same : first ++ separator :: second = front ++ separator :: back) :
    first = front ∧ second = back := by
  rcases split_cases same with split | ⟨more, _, rest⟩ | ⟨more, _, rest⟩
  · exact split
  · exact absurd (rest ▸ List.mem_append_right more List.mem_cons_self) free
  · exact absurd (rest ▸ List.mem_append_right more List.mem_cons_self) clean

/-- What precedes the first separator determines the split there. -/
theorem split_at_first {separator : α} {first second front back : List α} (free : separator ∉ first)
    (clean : separator ∉ front) (same : first ++ separator :: second = front ++ separator :: back) :
    first = front ∧ second = back := by
  rcases split_cases same with split | ⟨more, longer, _⟩ | ⟨more, longer, _⟩
  · exact split
  · exact absurd (longer ▸ List.mem_append_right first List.mem_cons_self) clean
  · exact absurd (longer ▸ List.mem_append_right front List.mem_cons_self) free

end Crashomon

import Mathlib.Data.List.Infix

/-! The longest suffix of a list that has a property. A loop that removes from the
front while the rest lacks the property leaves it. -/

namespace Crashomon

structure LongestSuffix (good : List α → Prop) (whole kept : List α) : Prop where
  suffix : kept <:+ whole
  holds : good kept
  longest : ∀ other, other <:+ whole → good other → other <:+ kept

namespace LongestSuffix

variable {good : List α → Prop} {whole kept rest : List α} {head : α}

theorem whole_of_good (holds : good whole) : LongestSuffix good whole whole :=
  ⟨List.suffix_rfl, holds, fun _ inside _ => inside⟩

/-- A head that cannot be kept is removed. -/
theorem of_tail (bad : ¬ good (head :: rest)) (found : LongestSuffix good rest kept) :
    LongestSuffix good (head :: rest) kept := by
  refine ⟨found.suffix.trans (List.suffix_cons head rest), found.holds, fun other inside holds => ?_⟩
  rcases List.suffix_cons_iff.mp inside with same | shorter
  · exact absurd (same ▸ holds) bad
  · exact found.longest other shorter holds

end LongestSuffix

end Crashomon

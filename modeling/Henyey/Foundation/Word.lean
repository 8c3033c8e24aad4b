import Mathlib.Algebra.GroupWithZero.Nat

/-!
# Machine words
-/

namespace Foundation

/-- The words of 32 bits are not empty. -/
instance neZero_word : NeZero 4294967296 :=
  ⟨by decide⟩

end Foundation

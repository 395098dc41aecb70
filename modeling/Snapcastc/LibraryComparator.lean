import Mathlib

/-! Integer-valued comparators in the style of C: the sign of `cmp a b` tells on which side of `b`
the argument `a` lies. Everything here is about an arbitrary type and an arbitrary comparator. -/

namespace Comparator

variable {α β : Type*}

/-- The comparator orders its arguments by a total preorder: exchanging the arguments exchanges the
sign, and "not greater" is transitive. -/
structure TotalPreorder (cmp : α → α → Int) : Prop where
  swap : ∀ a b, 0 < cmp a b ↔ cmp b a < 0
  trans : ∀ a b c, cmp a b ≤ 0 → cmp b c ≤ 0 → cmp a c ≤ 0

namespace TotalPreorder

variable {cmp : α → α → Int} (hcmp : TotalPreorder cmp)

include hcmp

theorem refl (a : α) : cmp a a ≤ 0 := by
  by_contra h
  have hswap := (hcmp.swap a a).mp (by omega)
  omega

theorem le_of_pos {a b : α} (h : 0 < cmp a b) : cmp b a ≤ 0 := by
  have hswap := (hcmp.swap a b).mp h
  omega

theorem pos_trans {a b c : α} (hab : 0 < cmp a b) (hbc : 0 < cmp b c) : 0 < cmp a c := by
  by_contra hac
  have hca := hcmp.trans _ _ _ (show cmp a c ≤ 0 by omega) (hcmp.le_of_pos hbc)
  omega

end TotalPreorder

/-- Comparing through a map keeps the preorder. -/
theorem TotalPreorder.comap {cmp : α → α → Int} (hcmp : TotalPreorder cmp) (f : β → α) :
    TotalPreorder (fun a b => cmp (f a) (f b)) where
  swap a b := hcmp.swap (f a) (f b)
  trans a b c := hcmp.trans (f a) (f b) (f c)

/-- The reversed comparator orders the other way round. -/
theorem TotalPreorder.flip {cmp : α → α → Int} (hcmp : TotalPreorder cmp) :
    TotalPreorder (fun a b => cmp b a) where
  swap a b := hcmp.swap b a
  trans a b c hab hbc := hcmp.trans c b a hbc hab

end Comparator

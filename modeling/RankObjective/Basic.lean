import Mathlib

/-!
# Exact arithmetic for the ranking objectives

The objectives of `rank_objective.hpp` compute in `double`.  The model reads every `double` as
an element of a linearly ordered field `K` with a floor, which gives the casts to integers, and
takes the `<cmath>` functions the code calls as a `Libm K`.  Over `ℝ` with `Libm.real` this is
the exact-arithmetic reading of the code; results that need no property of `exp`, `log` or `pow`
are stated for every `K` and every `Libm K`.
-/

namespace RankObjective

/-- The functions of `<cmath>` the objectives call: `std::exp`, `std::log`, `std::log2` and
`std::pow`. -/
structure Libm (K : Type) where
  exp : K → K
  log : K → K
  log2 : K → K
  pow : K → K → K

/-- The exact real functions behind `<cmath>`. -/
noncomputable def Libm.real : Libm ℝ where
  exp := Real.exp
  log := Real.log
  log2 := Real.logb 2
  pow := fun x y ↦ x ^ y

@[simp] theorem Libm.real_exp (x : ℝ) : Libm.real.exp x = Real.exp x := rfl

@[simp] theorem Libm.real_log (x : ℝ) : Libm.real.log x = Real.log x := rfl

@[simp] theorem Libm.real_log2 (x : ℝ) : Libm.real.log2 x = Real.logb 2 x := rfl

@[simp] theorem Libm.real_pow (x y : ℝ) : Libm.real.pow x y = x ^ y := rfl

theorem Libm.real_log2_pos {x : ℝ} (hx : 1 < x) : 0 < Libm.real.log2 x :=
  Real.logb_pos one_lt_two hx

variable {K : Type} [LinearOrderedField K] [FloorRing K]

/-- `static_cast<int>` of a floating value: truncation toward zero. -/
def truncInt (x : K) : ℤ := if 0 ≤ x then ⌊x⌋ else ⌈x⌉

@[simp] theorem truncInt_natCast (n : ℕ) : truncInt (n : K) = n := by
  simp [truncInt]

end RankObjective

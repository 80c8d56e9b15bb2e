import Mathlib.Algebra.Order.Floor.Ring

/-!
# Rounding on a grid

Rounding to the nearest whole number with ties to the even one, and rounding down, up and to the
nearest multiple of a step.
-/

namespace Rounding

variable {K : Type} [Field K] [LinearOrder K] [FloorRing K]

/-- The nearest integer, and of two the even one. -/
def roundHalfEven (x : K) : ℤ :=
  if 2 * Int.fract x < 1 then ⌊x⌋
  else if 1 < 2 * Int.fract x then ⌊x⌋ + 1
  else if Even ⌊x⌋ then ⌊x⌋
  else ⌊x⌋ + 1

/-- `int` of a number. -/
def truncate (x : K) : ℤ := if 0 ≤ x then ⌊x⌋ else ⌈x⌉

def floorTo (step x : K) : K := ⌊x / step⌋ * step

def ceilTo (step x : K) : K := ⌈x / step⌉ * step

def roundTo (step x : K) : K := roundHalfEven (x / step) * step

/-- A whole multiple of the step. -/
def OnGrid (step x : K) : Prop := ∃ count : ℤ, x = count * step

theorem roundHalfEven_cases (x : K) : roundHalfEven x = ⌊x⌋ ∨ roundHalfEven x = ⌊x⌋ + 1 := by
  unfold roundHalfEven
  split
  · exact Or.inl rfl
  split
  · exact Or.inr rfl
  split
  · exact Or.inl rfl
  · exact Or.inr rfl

theorem onGrid_floorTo (step x : K) : OnGrid step (floorTo step x) := ⟨_, rfl⟩

theorem onGrid_ceilTo (step x : K) : OnGrid step (ceilTo step x) := ⟨_, rfl⟩

variable [IsStrictOrderedRing K]

theorem roundHalfEven_intCast (count : ℤ) : roundHalfEven (count : K) = count := by
  unfold roundHalfEven
  rw [if_pos (by simp), Int.floor_intCast]

theorem roundHalfEven_mono {x y : K} (hle : x ≤ y) : roundHalfEven x ≤ roundHalfEven y := by
  rcases (Int.floor_mono hle).lt_or_eq with hlt | heq
  · -- Different whole parts: each rounds to one of its own two neighbours.
    have hx : roundHalfEven x ≤ ⌊x⌋ + 1 := by
      rcases roundHalfEven_cases x with h | h <;> omega
    have hy : ⌊y⌋ ≤ roundHalfEven y := by
      rcases roundHalfEven_cases y with h | h <;> omega
    omega
  · have hfract : Int.fract x ≤ Int.fract y := by
      unfold Int.fract
      rw [heq]
      linarith
    unfold roundHalfEven
    rw [heq]
    -- The same whole part: the choice goes by the fraction, and by the parity at the tie.
    split_ifs <;> first | omega | (exfalso; linarith)

section

variable {step x : K}

variable (hstep : 0 < step)

include hstep

theorem floorTo_le (x : K) : floorTo step x ≤ x := by
  have hfloor := Int.floor_le (x / step)
  calc floorTo step x ≤ x / step * step := mul_le_mul_of_nonneg_right hfloor hstep.le
    _ = x := div_mul_cancel₀ x hstep.ne'

theorem le_ceilTo (x : K) : x ≤ ceilTo step x := by
  have hceil := Int.le_ceil (x / step)
  calc x = x / step * step := (div_mul_cancel₀ x hstep.ne').symm
    _ ≤ ceilTo step x := mul_le_mul_of_nonneg_right hceil hstep.le

theorem roundTo_mono : Monotone (roundTo step) := by
  intro x y hle
  have hround : roundHalfEven (x / step) ≤ roundHalfEven (y / step) :=
    roundHalfEven_mono (div_le_div_of_nonneg_right hle hstep.le)
  exact mul_le_mul_of_nonneg_right (Int.cast_le.mpr hround) hstep.le

theorem roundTo_of_onGrid (hgrid : OnGrid step x) : roundTo step x = x := by
  obtain ⟨count, rfl⟩ := hgrid
  unfold roundTo
  rw [mul_div_cancel_right₀ _ hstep.ne', roundHalfEven_intCast]

theorem roundTo_roundTo (x : K) : roundTo step (roundTo step x) = roundTo step x :=
  roundTo_of_onGrid hstep ⟨_, rfl⟩

theorem roundTo_min (x y : K) : roundTo step (min x y) = min (roundTo step x) (roundTo step y) :=
  (roundTo_mono hstep).map_min

end

end Rounding

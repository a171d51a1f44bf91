import Mathlib.Algebra.Order.Field.Basic
import Mathlib.Data.Nat.Cast.Order.Field
import Mathlib.Tactic.FieldSimp
import Mathlib.Tactic.Lemma
import Mathlib.Tactic.Linarith
import Mathlib.Tactic.Positivity

/-!
# Rounding

Rounding to the nearest number that can be written, a tie to the even one: of a quotient to a whole
number (`halfEven`), and of a whole number to one with few significant bits (`significant`), which
is what a product of floating point numbers is.  Either is off by at most half of the last place
that is kept.
-/

namespace Rounding

variable {K : Type*} [Field K] [LinearOrder K] [IsStrictOrderedRing K]

/-! ## Whole numbers -/

/-- A quotient rounded to the nearest whole number, a tie to the even one. -/
def halfEven (n d : Nat) : Nat :=
  if 2 * (n % d) < d ∨ (2 * (n % d) = d ∧ n / d % 2 = 0) then n / d else n / d + 1

lemma halfEven_spec (n : Nat) {d : Nat} (h : 0 < d) :
    2 * (halfEven n d * d) ≤ 2 * n + d ∧ 2 * n ≤ 2 * (halfEven n d * d) + d := by
  have hsplit := Nat.div_add_mod n d
  have hmod := Nat.mod_lt n h
  unfold halfEven
  rw [Nat.mul_comm] at hsplit
  split_ifs with hdown
  · omega
  · rw [Nat.add_mul, Nat.one_mul]
    omega

/-- A rounded quotient is at most a half off. -/
lemma abs_halfEven_sub_le (n : Nat) {d : Nat} (h : 0 < d) :
    |(halfEven n d : K) - n / d| ≤ 1 / 2 := by
  obtain ⟨hupper, hlower⟩ := halfEven_spec n h
  generalize halfEven n d = rounded at hupper hlower ⊢
  have hpos : (0 : K) < d := by exact_mod_cast h
  have hupper : 2 * ((rounded : K) * d) ≤ 2 * n + d := by exact_mod_cast hupper
  have hlower : 2 * (n : K) ≤ 2 * (rounded * d) + d := by exact_mod_cast hlower
  rw [abs_le]
  constructor
  · have hle : (n : K) / d ≤ rounded + 1 / 2 := by
      rw [div_le_iff₀ hpos]
      linarith
    linarith
  · have hle : (rounded : K) - 1 / 2 ≤ n / d := by
      rw [le_div_iff₀ hpos]
      linarith
    linarith

lemma halfEven_one (n : Nat) : halfEven n 1 = n := by
  simp [halfEven, Nat.mod_one]

/-! ## Significant bits -/

section Significant

variable (precision least n : Nat)

/-- The last place that is kept of a number: as many bits as the precision allows are above it or
at it, and it is not below the least place there is. -/
def lastPlace : Nat := 2 ^ max least (n.log2 + 1 - precision)

/-- A number rounded to its last place. -/
def significant : Nat := halfEven n (lastPlace precision least n) * lastPlace precision least n

variable {precision least n}

lemma lastPlace_le {bits : Nat} (hprecision : 0 < precision) (h : n < 2 ^ bits) :
    lastPlace precision least n ≤ 2 ^ max least (bits - precision) := by
  refine Nat.pow_le_pow_right (by decide) ?_
  by_cases hzero : n = 0
  · subst hzero
    have hlog : Nat.log2 0 = 0 := Nat.log2_zero
    omega
  · have hlog := (Nat.log2_lt hzero).2 h
    omega

/-- A number of which every bit is kept stays as it is. -/
lemma significant_of_lastPlace (h : lastPlace precision least n = 1) :
    significant precision least n = n := by
  rw [significant, h, halfEven_one, Nat.mul_one]

/-- A rounded number is at most half of the last place off. -/
lemma abs_significant_sub_le :
    |(significant precision least n : K) - n| ≤ lastPlace precision least n / 2 := by
  have hplace : 0 < lastPlace precision least n := Nat.pow_pos (by decide)
  obtain ⟨hupper, hlower⟩ := halfEven_spec n hplace
  have hupper : 2 * (significant precision least n : K) ≤ 2 * n + lastPlace precision least n := by
    exact_mod_cast hupper
  have hlower : 2 * (n : K) ≤ 2 * significant precision least n + lastPlace precision least n := by
    exact_mod_cast hlower
  rw [abs_le]
  constructor <;> linarith

/-- Of a number with `bits` bits before the point and `places` after it, a precision of `spare` bits
more than those before the point leaves `spare` bits after it. -/
lemma abs_significant_div_sub_le {places bits spare : Nat} (hspare : 0 < spare)
    (hprecision : precision = bits + spare) (hleast : least + spare ≤ max places spare)
    (h : n < 2 ^ (places + bits)) :
    |(significant precision least n : K) / 2 ^ places - n / 2 ^ places| ≤ 1 / 2 ^ (spare + 1) := by
  have hplace : lastPlace precision least n ≤ 2 ^ max least (places + bits - precision) :=
    lastPlace_le (by omega) h
  by_cases hexact : places ≤ spare
  · have hzero : max least (places + bits - precision) = 0 := by omega
    rw [hzero, Nat.pow_zero] at hplace
    have hone : lastPlace precision least n = 1 := Nat.le_antisymm hplace (Nat.pow_pos (by decide))
    rw [significant_of_lastPlace hone, sub_self, abs_zero]
    positivity
  · have hexponent : max least (places + bits - precision) = places - spare := by omega
    rw [hexponent] at hplace
    have hplaces : (2 : K) ^ places = 2 ^ (places - spare) * 2 ^ spare := by
      rw [← pow_add, Nat.sub_add_cancel (by omega)]
    have hpos : (0 : K) < 2 ^ places := by positivity
    rw [← sub_div, abs_div, abs_of_pos hpos, div_le_iff₀ hpos]
    calc |(significant precision least n : K) - n|
        ≤ lastPlace precision least n / 2 := abs_significant_sub_le
      _ ≤ 2 ^ (places - spare) / 2 := by
          have hcast : (lastPlace precision least n : K) ≤ 2 ^ (places - spare) := by
            exact_mod_cast hplace
          linarith
      _ = 1 / 2 ^ (spare + 1) * 2 ^ places := by
          rw [hplaces, pow_succ]
          field_simp

end Significant

end Rounding

/-
Machine arithmetic on natural numbers.

A counter of width `w` is a natural number below `2 ^ w`. The checked
operations fail where a `w`-bit operation would overflow or underflow,
so a computation written with them in the `Option` monad returns `none`
exactly where the machine would trap; saturating operations clamp. A
real-valued product cast to a `w`-bit integer is truncated toward zero
and clamped (`trunc`): the value is floored, negative values go to
zero, large ones to `2 ^ w - 1`.
-/
import Mathlib.Algebra.Order.Floor.Semifield
import Mathlib.Algebra.Order.Floor.Semiring
import Mathlib.Algebra.Order.Field.Basic
import Mathlib.Data.Rat.Floor
import Mathlib.Tactic.Linarith

namespace Machine

-- ====================================================== checked integers

/-- A `w`-bit result, or nothing when it does not fit. -/
def fit (w n : Nat) : Option Nat := if n < 2 ^ w then some n else none

/-- Checked addition. -/
def add (w a b : Nat) : Option Nat := fit w (a + b)

/-- Checked multiplication. -/
def mul (w a b : Nat) : Option Nat := fit w (a * b)

/-- Checked subtraction: fails below zero, at any width. -/
def sub (a b : Nat) : Option Nat := if b ≤ a then some (a - b) else none

/-- Saturating addition. -/
def satAdd (w a b : Nat) : Nat := min (a + b) (2 ^ w - 1)

@[simp] theorem fit_eq_some {w n c : Nat} :
    fit w n = some c ↔ n < 2 ^ w ∧ n = c := by
  unfold fit
  split <;> simp_all

@[simp] theorem add_eq_some {w a b c : Nat} :
    add w a b = some c ↔ a + b < 2 ^ w ∧ a + b = c := fit_eq_some

@[simp] theorem mul_eq_some {w a b c : Nat} :
    mul w a b = some c ↔ a * b < 2 ^ w ∧ a * b = c := fit_eq_some

@[simp] theorem sub_eq_some {a b c : Nat} :
    sub a b = some c ↔ b ≤ a ∧ a - b = c := by
  unfold sub
  split <;> simp_all

/-- The greater of two bytes, as a number. -/
theorem toNat_max (a b : UInt8) :
    (max a b).toNat = max a.toNat b.toNat := by
  show (if a ≤ b then b else a).toNat = _
  by_cases h : a ≤ b
  · rw [if_pos h, Nat.max_eq_right (UInt8.le_iff_toNat_le.mp h)]
  · rw [if_neg h]
    have hlt := UInt8.le_iff_toNat_le.not.mp h
    omega

-- ==================================================== truncated products

section Trunc

variable {K : Type*} [Semiring K] [LinearOrder K] [FloorSemiring K]

/-- Cast of a real value to a `w`-bit unsigned integer. -/
def trunc (w : Nat) (x : K) : Nat := min ⌊x⌋₊ (2 ^ w - 1)

theorem trunc_le_floor (w : Nat) (x : K) : trunc w x ≤ ⌊x⌋₊ :=
  Nat.min_le_left ..

theorem trunc_lt (w : Nat) (x : K) : trunc w x < 2 ^ w := by
  have h : trunc w x ≤ 2 ^ w - 1 := Nat.min_le_right ..
  have hpos := Nat.two_pow_pos w
  omega

variable [IsStrictOrderedRing K]

theorem trunc_mono (w : Nat) : Monotone (trunc w : K → Nat) :=
  fun _ _ h => min_le_min_right _ (Nat.floor_mono h)

theorem trunc_of_nonpos (w : Nat) {x : K} (h : x ≤ 0) : trunc w x = 0 := by
  unfold trunc
  rw [Nat.floor_of_nonpos h]
  exact Nat.zero_min _

@[simp] theorem trunc_natCast (w n : Nat) :
    trunc w (n : K) = min n (2 ^ w - 1) := by
  unfold trunc
  rw [Nat.floor_natCast]

/-- A product with a factor of at most one does not exceed the integer
it scales. -/
theorem trunc_mul_le (w n : Nat) {q : K} (hq : q ≤ 1) :
    trunc w ((n : K) * q) ≤ n := by
  have hmul : (n : K) * q ≤ (n : K) * 1 :=
    mul_le_mul_of_nonneg_left hq (Nat.cast_nonneg n)
  calc trunc w ((n : K) * q) ≤ ⌊(n : K) * q⌋₊ := trunc_le_floor w _
    _ ≤ ⌊(n : K)⌋₊ := Nat.floor_mono (by simpa using hmul)
    _ = n := Nat.floor_natCast n

end Trunc

/-- A product with a fraction is the integer product, divided. -/
theorem trunc_mul_div {K : Type*} [Semifield K] [LinearOrder K]
    [IsStrictOrderedRing K] [FloorSemiring K] (w n a b : Nat) :
    trunc w ((n : K) * ((a : K) / b)) = min (n * a / b) (2 ^ w - 1) := by
  have hfloor : ⌊(n : K) * ((a : K) / b)⌋₊ = n * a / b := by
    rw [← mul_div_assoc, ← Nat.cast_mul, Nat.floor_div_eq_div]
  unfold trunc
  rw [hfloor]

end Machine

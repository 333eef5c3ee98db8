/-
Doubles with their special values.

A double is a rational, an infinity or not-a-number. Comparisons and the
special values follow IEEE 754 (every comparison with `nan` is false,
`0 * inf` is `nan`), results are rounded to the nearest double
(`ofRat`), and the cast to an unsigned integer truncates toward zero,
saturates and sends `nan` to zero. The sign of zero is not represented.
-/
import ChainLightning.Lib.Binary64
import ChainLightning.Lib.Machine

/-- A double. -/
inductive Double where
  | fin (q : ℚ)
  | inf (neg : Bool)
  | nan
  deriving DecidableEq

namespace Double

open Binary64

/-- `a <= b`, false as soon as one side is not a number. -/
def le : Double → Double → Bool
  | fin a, fin b => a ≤ b
  | fin _, inf neg => !neg
  | inf neg, fin _ => neg
  | inf neg, inf neg' => neg || !neg'
  | _, _ => false

/-- `a < b`, false as soon as one side is not a number. -/
def lt : Double → Double → Bool
  | fin a, fin b => a < b
  | fin _, inf neg => !neg
  | inf neg, fin _ => neg
  | inf neg, inf neg' => neg && !neg'
  | _, _ => false

/-- The double nearest to a rational, infinite past the largest one. -/
def ofRat (q : ℚ) : Double :=
  if |rnd q| < 2 ^ 1024 then fin (rnd q) else inf (q < 0)

/-- Product of a finite double with any double. -/
def product (a : ℚ) : Double → Double
  | fin b => ofRat (a * b)
  | inf neg => if a = 0 then nan else inf (neg != (a < 0))
  | nan => nan

/-- Sum of two doubles: opposite infinities have none. -/
def add : Double → Double → Double
  | fin a, fin b => ofRat (a + b)
  | fin _, inf neg => inf neg
  | inf neg, fin _ => inf neg
  | inf neg, inf neg' => if neg = neg' then inf neg else nan
  | _, _ => nan

/-- The rest to one, `1.0 - a`. -/
def compl : Double → Double
  | fin a => ofRat (1 - a)
  | inf neg => inf (!neg)
  | nan => nan

/-- Cast to a `w`-bit unsigned integer. -/
def toNat (w : Nat) : Double → Nat
  | fin q => Machine.trunc w q
  | inf true => 0
  | inf false => 2 ^ w - 1
  | nan => 0

/-- The cast of the nearest double is monotone. -/
theorem toNat_ofRat_mono (w : Nat) {q r : ℚ} (h : q ≤ r) :
    (ofRat q).toNat w ≤ (ofRat r).toNat w := by
  unfold ofRat
  by_cases hneg : r < 0
  · -- below zero everything casts to zero
    have hq : rnd q ≤ 0 := rnd_nonpos (h.trans hneg.le)
    have hcast : ∀ d : Prop, [Decidable d] →
        (if d then fin (rnd q) else inf (q < 0)).toNat w = 0 := by
      intro d _
      have hq0 : q < 0 := h.trans_lt hneg
      split
      case isTrue => exact Machine.trunc_of_nonpos w hq
      case isFalse => simp [toNat, hq0]
    rw [hcast]
    exact Nat.zero_le _
  · have hr : ¬r < 0 := hneg
    by_cases hfin : |rnd r| < 2 ^ 1024
    · rw [if_pos hfin]
      split
      case isTrue => exact Machine.trunc_mono w (rnd_mono h)
      case isFalse hbig =>
          -- a number below that is not finite is below zero
          have hq0 : q < 0 := by
            by_contra hq
            refine hbig (lt_of_le_of_lt ?_ hfin)
            rw [abs_of_nonneg (rnd_nonneg (not_lt.mp hq)),
              abs_of_nonneg (rnd_nonneg (not_lt.mp hr))]
            exact rnd_mono h
          simp [toNat, hq0]
    · rw [if_neg hfin]
      have htop : (inf (r < 0)).toNat w = 2 ^ w - 1 := by
        simp [toNat, hr]
      rw [htop]
      split
      case isTrue => exact Nat.le_pred_of_lt (Machine.trunc_lt w _)
      case isFalse =>
          by_cases hq0 : q < 0
          · simp [toNat, hq0]
          · simp [toNat, hq0]

/-- The cast of a product is monotone in a factor that is not negative,
whatever the other one: a product that decreases is negative and casts to
zero. -/
theorem toNat_product_mono (w : Nat) (m : Double) {a b : ℚ} (ha : 0 ≤ a)
    (h : a ≤ b) : (product a m).toNat w ≤ (product b m).toNat w := by
  cases m with
  | fin q =>
      by_cases hq : 0 ≤ q
      · exact toNat_ofRat_mono w (mul_le_mul_of_nonneg_right h hq)
      · have hneg : a * q ≤ 0 :=
          mul_nonpos_of_nonneg_of_nonpos ha (le_of_not_ge hq)
        have hzero : (ofRat 0).toNat w = 0 := by
          simp [ofRat, toNat, Machine.trunc_of_nonpos]
        refine (toNat_ofRat_mono w hneg).trans ?_
        rw [hzero]
        exact Nat.zero_le _
  | inf neg =>
      by_cases hz : a = 0
      · rw [product, if_pos hz]
        exact Nat.zero_le _
      · have hpos : 0 < a := lt_of_le_of_ne ha (Ne.symm hz)
        have hb := hpos.trans_le h
        rw [product, product, if_neg hz, if_neg hb.ne']
        simp [not_lt.mpr ha, not_lt.mpr hb.le]
  | nan => exact Nat.le_refl _

end Double

/-
Rounding to floating point.

`round p emin` takes a rational to the nearest multiple of its unit in the
last place, ties to the even multiple: the arithmetic of a binary format
with `p` digits and least exponent `emin`, without an upper bound on the
exponent. It is monotone and odd, and leaves alone what the format can
represent (`round_of_representable`), so bounds by representable numbers
pass through it. Binary64 is the instance with 53 digits and least
exponent -1074 (`rnd`).
-/
import Mathlib.Algebra.Order.Field.Power
import Mathlib.Data.Int.Log
import Mathlib.Data.Rat.Floor
import Mathlib.Tactic.FieldSimp
import Mathlib.Tactic.Linarith
import Mathlib.Tactic.NormNum
import Mathlib.Tactic.Positivity
import Mathlib.Tactic.Ring
import ChainLightning.Lib.Machine

namespace Binary64

open Machine

-- ==================================================== the nearest integer

/-- The nearest integer, an even one when two are as near. -/
def nearest (x : ℚ) : ℤ :=
  if x - ⌊x⌋ < 1 / 2 ∨ (x - ⌊x⌋ = 1 / 2 ∧ ⌊x⌋ % 2 = 0) then ⌊x⌋
  else ⌊x⌋ + 1

theorem floor_le_nearest (x : ℚ) : ⌊x⌋ ≤ nearest x := by
  unfold nearest
  split <;> omega

theorem nearest_le_floor_add_one (x : ℚ) : nearest x ≤ ⌊x⌋ + 1 := by
  unfold nearest
  split <;> omega

@[simp] theorem nearest_intCast (n : ℤ) : nearest (n : ℚ) = n := by
  simp [nearest]

/-- From half an integer below on the nearest integer is at least that
one, at the half itself if it is even. -/
theorem le_nearest_iff {n : ℤ} {x : ℚ} :
    n ≤ nearest x
      ↔ (n : ℚ) - 1 / 2 < x ∨ ((n : ℚ) - 1 / 2 = x ∧ n % 2 = 0) := by
  have hlow := Int.floor_le x
  have hhigh := Int.lt_floor_add_one x
  rcases lt_trichotomy n (⌊x⌋ + 1) with hlt | rfl | hgt
  · have hle : n ≤ ⌊x⌋ := by omega
    have hcast : (n : ℚ) ≤ ⌊x⌋ := by exact_mod_cast hle
    refine iff_of_true (hle.trans (floor_le_nearest x)) (Or.inl ?_)
    linarith
  · push_cast
    unfold nearest
    split
    case isTrue h =>
        refine iff_of_false (by omega) ?_
        rintro (habove | ⟨hhalf, heven⟩)
        · rcases h with h | ⟨h, -⟩ <;> linarith
        · rcases h with h | ⟨-, h⟩
          · linarith
          · omega
    case isFalse h =>
        refine iff_of_true (le_refl _) ?_
        rcases lt_trichotomy (x - ⌊x⌋) (1 / 2) with hlt | heq | hgt
        · exact absurd (Or.inl hlt) h
        · refine Or.inr ⟨by linarith, ?_⟩
          by_contra hodd
          exact h (Or.inr ⟨heq, by omega⟩)
        · exact Or.inl (by linarith)
  · have hup := nearest_le_floor_add_one x
    have hcast : (⌊x⌋ : ℚ) + 2 ≤ n := by
      exact_mod_cast (show ⌊x⌋ + 2 ≤ n by omega)
    refine iff_of_false (by omega) ?_
    rintro (h | ⟨h, -⟩) <;> linarith

theorem nearest_mono {x y : ℚ} (h : x ≤ y) : nearest x ≤ nearest y := by
  rcases (Int.floor_mono h).lt_or_eq with hlt | heq
  · -- an integer lies between the two
    have hx := nearest_le_floor_add_one x
    have hy := floor_le_nearest y
    omega
  · by_cases hy : nearest y = ⌊y⌋ + 1
    · have hx := nearest_le_floor_add_one x
      omega
    · -- over one floor the choice is by the fraction
      have hdown : y - ⌊y⌋ < 1 / 2 ∨ (y - ⌊y⌋ = 1 / 2 ∧ ⌊y⌋ % 2 = 0) := by
        by_contra hup
        exact hy (if_neg hup)
      have hle : x - ⌊x⌋ ≤ y - ⌊y⌋ := by
        rw [heq]
        linarith
      have hx : nearest x = ⌊x⌋ := by
        refine if_pos ?_
        rcases hdown with hlt | ⟨hhalf, heven⟩
        · exact Or.inl (hle.trans_lt hlt)
        · rcases (hle.trans_eq hhalf).lt_or_eq with hlt | htie
          · exact Or.inl hlt
          · exact Or.inr ⟨htie, heq ▸ heven⟩
      rw [hx, heq]
      exact floor_le_nearest y

theorem nearest_neg (x : ℚ) : nearest (-x) = -nearest x := by
  by_cases hint : x = ⌊x⌋
  · rw [hint, ← Int.cast_neg, nearest_intCast, nearest_intCast]
  · have hfloor : ⌊-x⌋ = -⌊x⌋ - 1 := by
      have hlow : (⌊x⌋ : ℚ) < x :=
        lt_of_le_of_ne (Int.floor_le x) (Ne.symm hint)
      have hhigh := Int.lt_floor_add_one x
      rw [Int.floor_eq_iff]
      push_cast
      constructor <;> linarith
    have hfract : -x - ((-⌊x⌋ - 1 : ℤ) : ℚ) = 1 - (x - ⌊x⌋) := by
      push_cast
      ring
    unfold nearest
    rw [hfloor, hfract]
    rcases lt_trichotomy (x - ⌊x⌋) (1 / 2) with hlt | heq | hgt
    · rw [if_neg, if_pos (Or.inl hlt)]
      · omega
      · rintro (h | ⟨h, -⟩) <;> linarith
    · rw [heq, show (1 : ℚ) - 1 / 2 = 1 / 2 by norm_num]
      by_cases heven : ⌊x⌋ % 2 = 0
      · rw [if_neg, if_pos (Or.inr ⟨rfl, heven⟩)]
        · omega
        · rintro (h | ⟨-, h⟩)
          · exact lt_irrefl _ h
          · omega
      · rw [if_pos (Or.inr ⟨rfl, by omega⟩), if_neg]
        · omega
        · rintro (h | ⟨-, h⟩)
          · exact lt_irrefl _ h
          · exact heven h
    · rw [if_pos (Or.inl (by linarith)), if_neg]
      · omega
      · rintro (h | ⟨h, -⟩) <;> linarith

theorem nearest_error (x : ℚ) : |(nearest x : ℚ) - x| ≤ 1 / 2 := by
  have hlow := Int.floor_le x
  have hhigh := Int.lt_floor_add_one x
  unfold nearest
  rw [abs_le]
  split
  case isTrue h =>
      have hhalf : x - ⌊x⌋ ≤ 1 / 2 := h.elim le_of_lt fun h => h.1.le
      constructor <;> linarith
  case isFalse h =>
      have hhalf : 1 / 2 ≤ x - ⌊x⌋ := not_lt.mp fun hlt => h (Or.inl hlt)
      push_cast
      constructor <;> linarith

-- ================================================================ rounding

section Round

variable (p : ℕ) (emin : ℤ)

/-- The exponent of the last place of a number. -/
def place (q : ℚ) : ℤ := max (Int.log 2 |q| + 1 - p) emin

/-- The nearest number with `p` digits. -/
def round (q : ℚ) : ℚ :=
  nearest (q / 2 ^ place p emin q) * 2 ^ place p emin q

/-- The numbers of the format. -/
def Representable (q : ℚ) : Prop :=
  ∃ m e : ℤ, |m| ≤ 2 ^ p ∧ emin ≤ e ∧ q = m * 2 ^ e

variable {p emin}

theorem place_neg (q : ℚ) : place p emin (-q) = place p emin q := by
  simp [place]

@[simp] theorem round_zero : round p emin 0 = 0 := by
  have hzero := nearest_intCast 0
  rw [Int.cast_zero] at hzero
  simp [round, hzero]

theorem round_neg (q : ℚ) : round p emin (-q) = -round p emin q := by
  simp [round, place_neg, neg_div, nearest_neg]

/-- A number that is a multiple of its last place stays. -/
theorem round_of_multiple {q : ℚ} {n : ℤ}
    (h : q = n * 2 ^ place p emin q) : round p emin q = q := by
  have hpos : (2 : ℚ) ^ place p emin q ≠ 0 := by positivity
  have hdiv : q / 2 ^ place p emin q = n := by
    rw [div_eq_iff hpos]
    exact h
  rw [round, hdiv, nearest_intCast]
  exact h.symm

/-- A multiple of a higher place is a multiple of a lower one. -/
theorem multiple_of_le {m e f : ℤ} (h : f ≤ e) :
    ∃ n : ℤ, (m : ℚ) * 2 ^ e = n * 2 ^ f := by
  obtain ⟨k, hk⟩ := Int.eq_ofNat_of_zero_le (sub_nonneg.mpr h)
  refine ⟨m * 2 ^ k, ?_⟩
  have he : e = f + k := by omega
  rw [he, zpow_add₀ (by norm_num), zpow_natCast]
  push_cast
  ring

/-- What the format represents stays. -/
theorem round_of_representable (hp : 0 < p) {q : ℚ}
    (h : Representable p emin q) : round p emin q = q := by
  obtain ⟨m, e, hm, he, rfl⟩ := h
  rcases eq_or_ne m 0 with rfl | hne
  · simp
  -- a full mantissa is a power of two, and has another form
  obtain ⟨m', e', hm', he', hsame⟩ : ∃ m' e' : ℤ, |m'| < 2 ^ p ∧ emin ≤ e'
      ∧ (m : ℚ) * 2 ^ e = m' * 2 ^ e' := by
    rcases hm.lt_or_eq with hlt | heq
    · exact ⟨m, e, hlt, he, rfl⟩
    · obtain ⟨k, rfl⟩ := Nat.exists_eq_succ_of_ne_zero hp.ne'
      obtain ⟨h2, hsign⟩ : (2 : ℤ) ∣ m ∧ |m / 2| < 2 ^ (k + 1) := by
        rw [pow_succ] at heq ⊢
        have hpos : (0 : ℤ) < 2 ^ k := by positivity
        rcases abs_cases m with ⟨habs, -⟩ | ⟨habs, -⟩
        · rw [abs_lt]
          omega
        · rw [abs_lt]
          omega
      refine ⟨m / 2, e + 1, hsign, by omega, ?_⟩
      obtain ⟨n, rfl⟩ := h2
      rw [Int.mul_ediv_cancel_left n (by norm_num), zpow_add_one₀ (by norm_num)]
      push_cast
      ring
  rw [hsame]
  have hne' : (m' : ℚ) ≠ 0 := by
    rintro hzero
    rw [hzero, zero_mul] at hsame
    have hpow : (2 : ℚ) ^ e ≠ 0 := by positivity
    simp [hne, hpow] at hsame
  have hlog : Int.log 2 |(m' : ℚ) * 2 ^ e'| < p + e' := by
    rw [← Int.lt_zpow_iff_log_lt (by norm_num) (by positivity), abs_mul,
      abs_of_pos (by positivity : (0 : ℚ) < 2 ^ e')]
    push_cast
    rw [zpow_add₀ (by norm_num), zpow_natCast]
    refine mul_lt_mul_of_pos_right ?_ (by positivity)
    exact_mod_cast hm'
  obtain ⟨n, hn⟩ := multiple_of_le (m := m') (f := place p emin (m' * 2 ^ e'))
    (max_le (by omega) he')
  exact round_of_multiple hn

/-- Rounding yields a number of the format. -/
theorem representable_round (q : ℚ) :
    Representable p emin (round p emin q) := by
  refine ⟨nearest (q / 2 ^ place p emin q), place p emin q, ?_,
    le_max_right _ _, rfl⟩
  -- the number is below a power of two that is `2 ^ p` last places
  have hbelow : |q / 2 ^ place p emin q| ≤ 2 ^ p := by
    have hplace : (0 : ℚ) < 2 ^ place p emin q := by positivity
    rw [abs_div, abs_of_pos hplace, div_le_iff₀ hplace, ← zpow_natCast,
      ← zpow_add₀ (by norm_num)]
    refine (Int.lt_zpow_succ_log_self Nat.one_lt_two |q|).le.trans ?_
    rw [Nat.cast_ofNat]
    refine zpow_le_zpow_right₀ (by norm_num) ?_
    have hle := le_max_left (Int.log 2 |q| + 1 - p) emin
    unfold place
    omega
  obtain ⟨hlow, hhigh⟩ := abs_le.mp hbelow
  have hup := nearest_mono hhigh
  have hdown := nearest_mono hlow
  have hpow := nearest_intCast (2 ^ p)
  push_cast at hpow
  rw [hpow] at hup
  rw [nearest_neg, hpow] at hdown
  exact abs_le.mpr ⟨hdown, hup⟩

@[simp] theorem round_round (hp : 0 < p) (q : ℚ) :
    round p emin (round p emin q) = round p emin q :=
  round_of_representable hp (representable_round q)

theorem round_nonneg {q : ℚ} (h : 0 ≤ q) : 0 ≤ round p emin q := by
  have hquot : (0 : ℚ) ≤ q / 2 ^ place p emin q := by positivity
  have hnear := nearest_mono hquot
  have hzero := nearest_intCast 0
  rw [Int.cast_zero] at hzero
  rw [hzero] at hnear
  exact mul_nonneg (by exact_mod_cast hnear) (by positivity)

/-- Of two numbers with different last places the greater one is past a
power of two, which either rounds to at most or at least. -/
private theorem round_mono_of_nonneg (hp : 0 < p) {x y : ℚ} (hx : 0 ≤ x)
    (h : x ≤ y) : round p emin x ≤ round p emin y := by
  rcases hx.eq_or_lt with rfl | hpos
  · rw [round_zero]
    exact round_nonneg h
  have hposy := hpos.trans_le h
  have hlog : Int.log 2 |x| ≤ Int.log 2 |y| := by
    rw [abs_of_pos hpos, abs_of_pos hposy]
    exact Int.log_mono_right hpos h
  have hplace : place p emin x ≤ place p emin y :=
    max_le_max_right _ (by omega)
  rcases hplace.lt_or_eq with hlt | heq
  · have hpow : place p emin y = Int.log 2 |y| + 1 - p := by
      unfold place at hlt ⊢
      omega
    have hless : Int.log 2 |x| < Int.log 2 |y| := by
      unfold place at hlt
      omega
    have hgrid : ∀ f : ℤ, f ≤ Int.log 2 |y| →
        ∃ n : ℤ, (2 : ℚ) ^ Int.log 2 |y| = n * 2 ^ f := by
      intro f hf
      obtain ⟨n, hn⟩ := multiple_of_le (m := 1) hf
      rw [Int.cast_one, one_mul] at hn
      exact ⟨n, hn⟩
    obtain ⟨n, hn⟩ := hgrid (place p emin x) (by omega)
    obtain ⟨k, hk⟩ := hgrid (place p emin y) (by omega)
    have hxle : x ≤ 2 ^ Int.log 2 |y| := by
      have hbelow := Int.lt_zpow_succ_log_self Nat.one_lt_two |x|
      rw [abs_of_pos hpos, Nat.cast_ofNat] at hbelow
      rw [abs_of_pos hpos] at hless
      refine hbelow.le.trans (zpow_le_zpow_right₀ (by norm_num) ?_)
      omega
    have hley : (2 : ℚ) ^ Int.log 2 |y| ≤ y := by
      have habove := Int.zpow_log_le_self Nat.one_lt_two hposy
      rw [Nat.cast_ofNat] at habove
      rw [abs_of_pos hposy]
      exact habove
    calc round p emin x ≤ n * 2 ^ place p emin x := by
          refine mul_le_mul_of_nonneg_right ?_ (by positivity)
          rw [hn, ← div_le_iff₀ (by positivity)] at hxle
          have hnear := nearest_mono hxle
          rw [nearest_intCast] at hnear
          exact_mod_cast hnear
      _ = k * 2 ^ place p emin y := hn.symm.trans hk
      _ ≤ round p emin y := by
          refine mul_le_mul_of_nonneg_right ?_ (by positivity)
          rw [hk, ← le_div_iff₀ (by positivity)] at hley
          have hnear := nearest_mono hley
          rw [nearest_intCast] at hnear
          exact_mod_cast hnear
  · unfold round
    rw [heq]
    refine mul_le_mul_of_nonneg_right ?_ (by positivity)
    have hnear := nearest_mono (div_le_div_of_nonneg_right h
      (by positivity : (0 : ℚ) ≤ 2 ^ place p emin y))
    exact_mod_cast hnear

theorem round_mono (hp : 0 < p) : Monotone (round p emin) := by
  intro x y h
  rcases le_total 0 x with hx | hx
  · exact round_mono_of_nonneg hp hx h
  rcases le_total 0 y with hy | hy
  · have hnonneg := @round_nonneg p emin _ (neg_nonneg.mpr hx)
    rw [round_neg] at hnonneg
    exact (neg_nonneg.mp hnonneg).trans (round_nonneg hy)
  · have hneg := @round_mono_of_nonneg p emin hp _ _ (neg_nonneg.mpr hy)
      (neg_le_neg h)
    rw [round_neg, round_neg] at hneg
    exact neg_le_neg_iff.mp hneg

end Round

-- ================================================================ binary64

/-- The nearest double, were there no largest one. -/
def rnd (q : ℚ) : ℚ := round 53 (-1074) q

theorem rnd_mono : Monotone rnd := round_mono (by norm_num)

@[simp] theorem rnd_zero : rnd 0 = 0 := round_zero

@[simp] theorem rnd_rnd (q : ℚ) : rnd (rnd q) = rnd q :=
  round_round (by norm_num) q

theorem rnd_nonneg {q : ℚ} (h : 0 ≤ q) : 0 ≤ rnd q := round_nonneg h

theorem rnd_nonpos {q : ℚ} (h : q ≤ 0) : rnd q ≤ 0 := by
  have hmono := rnd_mono h
  rwa [rnd_zero] at hmono

/-- Every integer of 53 digits is a double. -/
theorem rnd_natCast {n : ℕ} (h : n ≤ 2 ^ 53) : rnd (n : ℚ) = n := by
  refine round_of_representable (by norm_num) ⟨n, 0, ?_, by norm_num, by simp⟩
  rw [abs_of_nonneg (by positivity)]
  exact_mod_cast h

@[simp] theorem rnd_one : rnd 1 = 1 := by
  have h := rnd_natCast (n := 1) (by norm_num)
  rwa [Nat.cast_one] at h

/-- So are the powers of two. -/
theorem rnd_two_zpow {z : ℤ} (h : -1074 ≤ z) : rnd (2 ^ z) = 2 ^ z := by
  refine round_of_representable (by norm_num) ⟨1, z, ?_, h, ?_⟩
  · norm_num
  · simp

/-- A double above a half is a multiple of `2 ^ -53`. -/
theorem multiple_of_half_lt {x : ℚ} (hx : rnd x = x) (h : 1 / 2 < x) :
    ∃ n : ℤ, x = n * 2 ^ (-53 : ℤ) := by
  obtain ⟨m, e, hm, -, hval⟩ : Representable 53 (-1074) x :=
    hx ▸ representable_round x
  have he : -53 ≤ e := by
    have hmax : x ≤ 2 ^ (53 + e) := by
      rw [hval, zpow_add₀ (by norm_num)]
      refine mul_le_mul_of_nonneg_right ?_ (by positivity)
      exact_mod_cast (le_abs_self m).trans hm
    by_contra hlt
    have hsmall : (2 : ℚ) ^ (53 + e) ≤ 2 ^ (-1 : ℤ) :=
      zpow_le_zpow_right₀ (by norm_num) (by omega)
    norm_num at hsmall hmax
    linarith
  obtain ⟨n, hn⟩ := multiple_of_le (m := m) he
  exact ⟨n, hval.trans hn⟩

/-- The difference of 1 and a double above a half is exact. -/
theorem rnd_one_sub {x : ℚ} (hx : rnd x = x) (hlow : 1 / 2 < x)
    (hhigh : x ≤ 1) : rnd (1 - x) = 1 - x := by
  obtain ⟨n, rfl⟩ := multiple_of_half_lt hx hlow
  refine round_of_representable (by norm_num)
    ⟨2 ^ 53 - n, -53, ?_, by norm_num, ?_⟩
  · norm_num at hlow hhigh
    have hn : n ≤ 2 ^ 53 := by
      exact_mod_cast (show (n : ℚ) ≤ 2 ^ 53 by linarith)
    have hn' : 0 ≤ n := by
      exact_mod_cast (show (0 : ℚ) ≤ n by linarith)
    rw [abs_le]
    omega
  · push_cast
    norm_num
    ring

/-- Rounding is off by at most `2 ^ -53` of the number, or of 1. -/
theorem rnd_error {x : ℚ} (hx : 0 ≤ x) :
    |rnd x - x| ≤ max 1 x * 2 ^ (-53 : ℤ) := by
  rcases hx.eq_or_lt with rfl | hpos
  · simp
  -- the last place is at most `2 ^ -52` of the number, or of 1
  have hunit : (2 : ℚ) ^ place 53 (-1074) x ≤ max 1 x * 2 ^ (-52 : ℤ) := by
    have hlow := Int.zpow_log_le_self Nat.one_lt_two hpos
    rw [Nat.cast_ofNat] at hlow
    unfold place
    rw [abs_of_pos hpos]
    rcases le_total 0 (Int.log 2 x) with hlog | hlog
    · have hplace : max (Int.log 2 x + 1 - ((53 : ℕ) : ℤ)) (-1074)
          = Int.log 2 x + -52 := by
        omega
      rw [hplace, zpow_add₀ (by norm_num)]
      exact mul_le_mul_of_nonneg_right (le_max_of_le_right hlow)
        (by positivity)
    · calc (2 : ℚ) ^ max (Int.log 2 x + 1 - ((53 : ℕ) : ℤ)) (-1074)
          ≤ 2 ^ (-52 : ℤ) :=
            zpow_le_zpow_right₀ (by norm_num) (by omega)
        _ ≤ max 1 x * 2 ^ (-52 : ℤ) :=
            le_mul_of_one_le_left (by positivity) (le_max_left _ _)
  have hgap : (0 : ℚ) < 2 ^ place 53 (-1074) x := by positivity
  have hscaled : rnd x - x
      = (nearest (x / 2 ^ place 53 (-1074) x) - x / 2 ^ place 53 (-1074) x)
        * 2 ^ place 53 (-1074) x := by
    rw [sub_mul, div_mul_cancel₀ _ hgap.ne']
    rfl
  calc |rnd x - x| ≤ 1 / 2 * 2 ^ place 53 (-1074) x := by
        rw [hscaled, abs_mul, abs_of_pos hgap]
        exact mul_le_mul_of_nonneg_right (nearest_error _) hgap.le
    _ ≤ max 1 x * 2 ^ (-53 : ℤ) := by
        norm_num at hunit ⊢
        linarith

/-- Up to `2 ^ k` it is off by at most `2 ^ (k - 53)`. -/
theorem rnd_within {k : ℕ} {x : ℚ} (h0 : 0 ≤ x) (hx : x ≤ 2 ^ k) :
    |rnd x - x| ≤ 2 ^ ((k : ℤ) - 53) := by
  refine (rnd_error h0).trans ?_
  rw [sub_eq_add_neg, zpow_add₀ (by norm_num), zpow_natCast]
  refine mul_le_mul_of_nonneg_right (max_le ?_ hx) (by positivity)
  exact one_le_pow₀ (by norm_num)

/-- A bound that is a double is kept, -/
theorem rnd_le {q r : ℚ} (hr : rnd r = r) (h : q ≤ r) : rnd q ≤ r :=
  (rnd_mono h).trans_eq hr

/-- on either side. -/
theorem le_rnd {q r : ℚ} (hr : rnd r = r) (h : r ≤ q) : r ≤ rnd q :=
  hr.symm.le.trans (rnd_mono h)

-- ======================================================= reaching an integer

/-- The distance of neighbouring doubles just below an integer. -/
def gapBelow (n : ℕ) : ℚ := 2 ^ ((Nat.clog 2 n : ℤ) - 53)

/-- The number is past the middle between the least double that is no less
than `n` and the one before it, or in the middle where that double is the
even one of the two. -/
def Reaches (n : ℕ) (x : ℚ) : Prop :=
  (⌈n / gapBelow n⌉ : ℚ) - 1 / 2 < x / gapBelow n
    ∨ ((⌈n / gapBelow n⌉ : ℚ) - 1 / 2 = x / gapBelow n
      ∧ ⌈n / gapBelow n⌉ % 2 = 0)

instance (n : ℕ) (x : ℚ) : Decidable (Reaches n x) :=
  inferInstanceAs (Decidable (_ ∨ _))

theorem gapBelow_pos (n : ℕ) : 0 < gapBelow n := by
  unfold gapBelow
  positivity

/-- A positive integer lies above one power of two and no higher than the
next. -/
theorem clog_natCast_bounds {n : ℕ} (hn : 0 < n) : ∃ k : ℤ,
    (Nat.clog 2 n : ℤ) = k + 1 ∧ (2 : ℚ) ^ k < n ∧ (n : ℚ) ≤ 2 ^ (k + 1) := by
  refine ⟨(Nat.clog 2 n : ℤ) - 1, by ring, ?_, ?_⟩
  · have h := Int.zpow_pred_clog_lt_self (R := ℚ) Nat.one_lt_two
      (Nat.cast_pos.mpr hn)
    rwa [Int.clog_natCast, Nat.cast_ofNat] at h
  · have h := Int.self_le_zpow_clog (R := ℚ) Nat.one_lt_two (n : ℚ)
    rw [Int.clog_natCast, Nat.cast_ofNat] at h
    rwa [sub_add_cancel]

/-- The last place of a double between two powers of two. -/
theorem place_of_between {k : ℤ} (hk : -1022 ≤ k) {x : ℚ} (hlow : 2 ^ k ≤ x)
    (hhigh : x < 2 ^ (k + 1)) : place 53 (-1074) x = k - 52 := by
  have hpos : 0 < x := lt_of_lt_of_le (by positivity) hlow
  have hlog : Int.log 2 x = k := by
    refine le_antisymm (Int.lt_add_one_iff.mp ?_) ?_
    · rw [← Int.lt_zpow_iff_log_lt Nat.one_lt_two hpos, Nat.cast_ofNat]
      exact hhigh
    · rw [← Int.zpow_le_iff_le_log Nat.one_lt_two hpos, Nat.cast_ofNat]
      exact hlow
  unfold place
  rw [abs_of_pos hpos, hlog]
  omega

/-- From there on numbers round to the integer or more. -/
theorem le_rnd_iff_reaches {n : ℕ} {x : ℚ} (hx : 0 ≤ x) :
    (n : ℚ) ≤ rnd x ↔ Reaches n x := by
  have hgap := gapBelow_pos n
  rcases Nat.eq_zero_or_pos n with rfl | hn
  · refine iff_of_true (by simpa using rnd_nonneg hx) (Or.inl ?_)
    have hquot : 0 ≤ x / gapBelow 0 := by positivity
    rw [Nat.cast_zero, zero_div, Int.ceil_zero, Int.cast_zero]
    linarith
  -- the integer lies in the binade of `2 ^ k`
  obtain ⟨k, hk, hlow, hhigh⟩ := clog_natCast_bounds hn
  have hmin : -1 ≤ k := by omega
  have hg : gapBelow n = 2 ^ (k - 52) := by
    unfold gapBelow
    congr 1
    omega
  have hfull : ∀ j : ℤ, (2 : ℚ) ^ (k + j) / gapBelow n = 2 ^ (52 + j) := by
    intro j
    rw [hg, ← zpow_sub₀ (by norm_num)]
    congr 1
    omega
  have hceil : ⌈n / gapBelow n⌉ ≤ 2 ^ 53 := by
    have hdiv := div_le_div_of_nonneg_right hhigh hgap.le
    rw [hfull] at hdiv
    refine Int.ceil_le.mpr (hdiv.trans ?_)
    norm_num
  have hceil' : 2 ^ 52 < ⌈n / gapBelow n⌉ := by
    have hdiv := div_lt_div_of_pos_right hlow hgap
    rw [← add_zero k, hfull] at hdiv
    refine Int.lt_ceil.mpr (lt_of_eq_of_lt ?_ hdiv)
    norm_num
  rcases lt_or_ge x (2 ^ k) with hbelow | habove
  · -- below the binade neither holds
    have hle := rnd_le (rnd_two_zpow (by omega)) hbelow.le
    refine iff_of_false (not_le.mpr (hle.trans_lt hlow)) ?_
    have hquot := div_lt_div_of_pos_right hbelow hgap
    rw [← add_zero k, hfull] at hquot
    have hcast : (2 : ℚ) ^ 52 + 1 ≤ ⌈n / gapBelow n⌉ := by
      exact_mod_cast hceil'
    norm_num at hquot hcast
    rintro (h | ⟨h, -⟩) <;> linarith
  rcases lt_or_ge x (2 ^ (k + 1)) with hbelow | hpast
  · -- within it the last place is the gap
    have hplace : (2 : ℚ) ^ place 53 (-1074) x = gapBelow n := by
      rw [place_of_between (by omega) habove hbelow, hg]
    show (n : ℚ) ≤ nearest (x / 2 ^ place 53 (-1074) x)
      * 2 ^ place 53 (-1074) x ↔ _
    rw [hplace, ← div_le_iff₀ hgap, ← Int.ceil_le, le_nearest_iff]
    rfl
  · -- past it both do
    have hle := le_rnd (rnd_two_zpow (by omega)) hpast
    refine iff_of_true (hhigh.trans hle) (Or.inl ?_)
    have hquot := div_le_div_of_nonneg_right hpast hgap.le
    rw [hfull] at hquot
    have hcast : (⌈n / gapBelow n⌉ : ℚ) ≤ 2 ^ 53 := by
      exact_mod_cast hceil
    norm_num at hquot hcast
    linarith

-- ===================================================== casts to integers

/-- The cast of a rounded number is the integer that the number reaches
without reaching the next one, or the greatest of all. -/
theorem trunc_rnd_eq_iff {x : ℚ} (hx : 0 ≤ x) {w n : ℕ} :
    trunc w (rnd x) = n
      ↔ n < 2 ^ w ∧ Reaches n x
        ∧ (Reaches (n + 1) x → n + 1 = 2 ^ w) := by
  have hpos := Nat.two_pow_pos w
  rw [← le_rnd_iff_reaches hx, ← le_rnd_iff_reaches hx,
    ← Nat.le_floor_iff (rnd_nonneg hx), ← Nat.le_floor_iff (rnd_nonneg hx)]
  unfold trunc
  omega

/-- `(n as f64 * q) as u64`, at width `w`. -/
def scaled (w : ℕ) (q : ℚ) (n : ℕ) : ℕ := trunc w (rnd (rnd n * q))

@[simp] theorem scaled_zero (w : ℕ) (q : ℚ) : scaled w q 0 = 0 := by
  simp [scaled, trunc_of_nonpos]

theorem scaled_lt (w : ℕ) (q : ℚ) (n : ℕ) : scaled w q n < 2 ^ w :=
  trunc_lt w _

/-- Scaling two integers by one factor keeps their order: a negative
factor takes both to zero. -/
theorem scaled_mono (w : ℕ) (q : ℚ) : Monotone (scaled w q) := by
  intro m n h
  have hle : rnd (m : ℚ) ≤ rnd n := rnd_mono (Nat.cast_le.mpr h)
  rcases le_total 0 q with hq | hq
  · exact trunc_mono w (rnd_mono (mul_le_mul_of_nonneg_right hle hq))
  · have hm : rnd (m : ℚ) * q ≤ 0 :=
      mul_nonpos_of_nonneg_of_nonpos (rnd_nonneg (Nat.cast_nonneg m)) hq
    unfold scaled
    rw [trunc_of_nonpos w (rnd_nonpos hm)]
    exact Nat.zero_le _

/-- Up to `2 ^ 53` a factor of at most one does not increase. -/
theorem scaled_le (w : ℕ) {q : ℚ} (hq : q ≤ 1) {n : ℕ} (hn : n ≤ 2 ^ 53) :
    scaled w q n ≤ n := by
  have hexact := rnd_natCast hn
  have hmul : rnd (n : ℚ) * q ≤ n := by
    rw [hexact]
    exact mul_le_of_le_one_right (Nat.cast_nonneg n) hq
  refine (trunc_le_floor w _).trans ?_
  calc ⌊rnd (rnd (n : ℚ) * q)⌋₊ ≤ ⌊(n : ℚ)⌋₊ :=
        Nat.floor_mono (rnd_le hexact hmul)
    _ = n := Nat.floor_natCast n

/-- A factor of at most 3/4 never does. -/
theorem scaled_le_of_le (w : ℕ) {q : ℚ} (hq : q ≤ 3 / 4) (n : ℕ) :
    scaled w q n ≤ n := by
  rcases Nat.eq_zero_or_pos n with rfl | hpos
  · rw [scaled_zero]
  have hn : (1 : ℚ) ≤ n := by exact_mod_cast hpos
  have hnonneg : (0 : ℚ) ≤ n := Nat.cast_nonneg n
  have hconv := (abs_le.mp (rnd_error hnonneg)).2
  rw [max_eq_right hn] at hconv
  have hmul : rnd (n : ℚ) * q ≤ n * (7 / 8) := by
    have hthree := mul_le_mul_of_nonneg_left hq (rnd_nonneg hnonneg)
    norm_num at hconv ⊢
    linarith
  have hround : rnd (rnd (n : ℚ) * q) ≤ n := by
    refine (rnd_mono hmul).trans ?_
    have hlast := (abs_le.mp
      (rnd_error (x := (n : ℚ) * (7 / 8)) (by positivity))).2
    have hmax : max 1 ((n : ℚ) * (7 / 8)) * 2 ^ (-53 : ℤ)
        ≤ n * 2 ^ (-53 : ℤ) :=
      mul_le_mul_of_nonneg_right (max_le hn (by linarith)) (by positivity)
    have hsum := hlast.trans hmax
    norm_num at hsum
    linarith
  calc scaled w q n ≤ ⌊rnd (rnd (n : ℚ) * q)⌋₊ := trunc_le_floor w _
    _ ≤ ⌊(n : ℚ)⌋₊ := Nat.floor_mono hround
    _ = n := Nat.floor_natCast n

/-- Up to there the cast does not saturate. -/
private theorem scaled_eq_floor {w : ℕ} {q : ℚ} (h1 : q ≤ 1) {n : ℕ}
    (hn : n ≤ 2 ^ 53) (hw : n < 2 ^ w) :
    scaled w q n = ⌊rnd ((n : ℚ) * q)⌋₊ := by
  have hexact := rnd_natCast hn
  have hround : rnd ((n : ℚ) * q) ≤ n :=
    rnd_le hexact (mul_le_of_le_one_right (Nat.cast_nonneg n) h1)
  have hfloor := Nat.floor_mono hround
  rw [Nat.floor_natCast] at hfloor
  unfold scaled
  rw [hexact]
  exact Nat.min_eq_left (by omega)

/-- A product with a factor of at most one is off by little. -/
private theorem product_error {k : ℕ} {q : ℚ} (h0 : 0 ≤ q) (h1 : q ≤ 1)
    {n : ℕ} (hn : n ≤ 2 ^ k) :
    |rnd ((n : ℚ) * q) - n * q| ≤ 2 ^ ((k : ℤ) - 53) := by
  have hnonneg : (0 : ℚ) ≤ n := Nat.cast_nonneg n
  have hcast : (n : ℚ) ≤ 2 ^ k := by exact_mod_cast hn
  exact rnd_within (mul_nonneg hnonneg h0)
    ((mul_le_of_le_one_right hnonneg h1).trans hcast)

/-- The scaled integer is next to the product: the rounding is off by at
most one, and the cast by less than one. -/
theorem scaled_near {w : ℕ} {q : ℚ} (h0 : 0 ≤ q) (h1 : q ≤ 1) {n : ℕ}
    (hn : n ≤ 2 ^ 53) (hw : n < 2 ^ w) :
    (scaled w q n : ℚ) ≤ q * n + 1 ∧ q * n ≤ (scaled w q n : ℚ) + 2 := by
  have herror := abs_le.mp (product_error h0 h1 hn)
  have hproduct : (0 : ℚ) ≤ n * q := mul_nonneg (Nat.cast_nonneg n) h0
  have hbelow := Nat.floor_le (rnd_nonneg hproduct)
  have habove := Nat.lt_floor_add_one (rnd ((n : ℚ) * q))
  rw [scaled_eq_floor h1 hn hw]
  norm_num at herror
  constructor <;> linarith

/-- Up to `2 ^ 51` the rounding is off by a quarter at most. -/
private theorem scaled_quarter {w : ℕ} {q : ℚ} (h0 : 0 ≤ q) (h1 : q ≤ 1)
    {n : ℕ} (hn : n ≤ 2 ^ 51) (hw : n < 2 ^ w) :
    (scaled w q n : ℚ) ≤ n * q + 1 / 4 ∧ n * q - 5 / 4 < scaled w q n := by
  have herror := abs_le.mp (product_error h0 h1 hn)
  have hproduct : (0 : ℚ) ≤ n * q := mul_nonneg (Nat.cast_nonneg n) h0
  have hbelow := Nat.floor_le (rnd_nonneg hproduct)
  have habove := Nat.lt_floor_add_one (rnd ((n : ℚ) * q))
  rw [scaled_eq_floor h1 (by omega) hw]
  norm_num at herror
  constructor <;> linarith

/-- Scaling two parts rather than their sum gains at most one, -/
theorem scaled_add {w : ℕ} {q : ℚ} (h0 : 0 ≤ q) (h1 : q ≤ 1) {m n : ℕ}
    (hn : m + n ≤ 2 ^ 51) (hw : m + n < 2 ^ w) :
    scaled w q m + scaled w q n ≤ scaled w q (m + n) + 1 := by
  have hm := (scaled_quarter (w := w) (n := m) h0 h1 (by omega)
    (by omega)).1
  have hn' := (scaled_quarter (w := w) (n := n) h0 h1 (by omega)
    (by omega)).1
  have hsum := (scaled_quarter h0 h1 hn hw).2
  push_cast at hsum
  have hcast : ((scaled w q m + scaled w q n : ℕ) : ℚ)
      < ((scaled w q (m + n) + 2 : ℕ) : ℚ) := by
    push_cast
    linarith
  exact Nat.le_of_lt_succ (Nat.cast_lt.mp hcast)

/-- and loses at most two. -/
theorem scaled_split {w : ℕ} {q : ℚ} (h0 : 0 ≤ q) (h1 : q ≤ 1) {m n : ℕ}
    (hn : m + n ≤ 2 ^ 51) (hw : m + n < 2 ^ w) :
    scaled w q (m + n) ≤ scaled w q m + scaled w q n + 2 := by
  have hm := (scaled_quarter (w := w) (n := m) h0 h1 (by omega)
    (by omega)).2
  have hn' := (scaled_quarter (w := w) (n := n) h0 h1 (by omega)
    (by omega)).2
  have hsum := (scaled_quarter h0 h1 hn hw).1
  push_cast at hsum
  have hcast : ((scaled w q (m + n) : ℕ) : ℚ)
      < ((scaled w q m + scaled w q n + 3 : ℕ) : ℚ) := by
    push_cast
    linarith
  exact Nat.le_of_lt_succ (Nat.cast_lt.mp hcast)

/-- A double below one is so by at least `2 ^ -53`. -/
theorem le_of_lt_one {q : ℚ} (hq : rnd q = q) (h : q < 1) :
    q ≤ 1 - 2 ^ (-53 : ℤ) := by
  rcases le_or_gt q (1 / 2) with hhalf | hhalf
  · norm_num
    linarith
  · obtain ⟨n, rfl⟩ := multiple_of_half_lt hq hhalf
    norm_num at h ⊢
    have hn : n + 1 ≤ 2 ^ 53 := by
      exact_mod_cast (show (n : ℚ) < 2 ^ 53 by linarith)
    have hcast : (n : ℚ) + 1 ≤ 2 ^ 53 := by exact_mod_cast hn
    linarith

/-- What is so much below an integer does not round up to it. -/
theorem rnd_lt_natCast {n : ℕ} (hn : 0 < n) {x : ℚ} (h0 : 0 ≤ x)
    (hx : x ≤ n * (1 - 2 ^ (-53 : ℤ))) : rnd x < n := by
  rw [← not_le, le_rnd_iff_reaches h0]
  have hgap := gapBelow_pos n
  -- an integer is more than half the next power of two
  have hhalf : 1 / 2 * gapBelow n < n * 2 ^ (-53 : ℤ) := by
    obtain ⟨k, hk, hlow, -⟩ := clog_natCast_bounds hn
    unfold gapBelow
    rw [hk, sub_eq_add_neg, zpow_add₀ (by norm_num),
      zpow_add_one₀ (by norm_num)]
    norm_num
    linarith
  have hbelow : x / gapBelow n < n / gapBelow n - 1 / 2 := by
    rw [mul_sub, mul_one] at hx
    rw [div_lt_iff₀ hgap, sub_mul, div_mul_cancel₀ _ hgap.ne']
    exact hx.trans_lt (sub_lt_sub_left hhalf _)
  have hceil := Int.le_ceil ((n : ℚ) / gapBelow n)
  rintro (h | ⟨h, -⟩) <;> linarith

/-- Scaling by a double of at most one does not raise a difference. -/
theorem scaled_add_le {w : ℕ} {q : ℚ} (hq : rnd q = q) (h0 : 0 ≤ q)
    (h1 : q ≤ 1) {m n : ℕ} (hn : m + n ≤ 2 ^ 26) (hw : m + n < 2 ^ w) :
    scaled w q (m + n) ≤ scaled w q m + n := by
  rcases Nat.eq_zero_or_pos n with rfl | hpos
  · exact Nat.le_refl _
  have hkm := scaled_le w h1 (n := m) (by omega)
  rw [scaled_eq_floor h1 (by omega) (by omega)] at hkm
  rw [scaled_eq_floor h1 (by omega) hw,
    scaled_eq_floor h1 (by omega) (by omega)]
  by_contra hlt
  have hproduct : ∀ l : ℕ, (0 : ℚ) ≤ l * q :=
    fun l => mul_nonneg (Nat.cast_nonneg l) h0
  generalize hk : ⌊rnd ((m : ℚ) * q)⌋₊ = k at hlt hkm
  have hsum : ((k + n + 1 : ℕ) : ℚ) ≤ rnd (((m + n : ℕ) : ℚ) * q) :=
    (Nat.le_floor_iff (rnd_nonneg (hproduct _))).mp (by omega)
  have hpart : (m : ℚ) * q < (k + 1 : ℕ) := by
    by_contra hge
    have hround := le_rnd (rnd_natCast (by omega)) (not_lt.mp hge)
    have hfloor := Nat.lt_floor_add_one (rnd ((m : ℚ) * q))
    rw [hk] at hfloor
    push_cast at hround
    linarith
  -- otherwise the sum itself is too small
  have hm : k + 1 ≤ m := by
    by_contra hle
    have hbound : ((m + n : ℕ) : ℚ) * q ≤ (k + n : ℕ) :=
      (mul_le_of_le_one_right (Nat.cast_nonneg _) h1).trans
        (Nat.cast_le.mpr (by omega))
    have hround := rnd_le (rnd_natCast (by omega)) hbound
    push_cast at hround hsum
    linarith
  have hone : q ≤ 1 - 2 ^ (-53 : ℤ) := by
    refine le_of_lt_one hq (lt_of_not_ge fun hge => ?_)
    have heq : q = 1 := le_antisymm h1 hge
    rw [heq, mul_one] at hpart
    have hlt' : m < k + 1 := by exact_mod_cast hpart
    omega
  have herror := (abs_le.mp (product_error h0 h1 hn)).2
  have hm' : (m : ℚ) + n ≤ 2 ^ 26 := by exact_mod_cast hn
  have hn' : (1 : ℚ) ≤ n := by exact_mod_cast hpos
  push_cast at hsum hpart herror
  norm_num at herror hone
  -- the factor is so close to one that the first part loses nothing
  have hnear : (n : ℚ) * (1 - q) < 1 / 134217728 := by linarith
  have hfactor : 1 - q < 1 / 134217728 := by
    have hle : 1 * (1 - q) ≤ n * (1 - q) :=
      mul_le_mul_of_nonneg_right hn' (by linarith)
    linarith
  have hlost : (m : ℚ) * (1 - q) < 1 := by
    have hle : (m : ℚ) * (1 - q) ≤ 2 ^ 26 * (1 - q) :=
      mul_le_mul_of_nonneg_right (by linarith) (by linarith)
    norm_num at hle
    linarith
  have heq : m = k + 1 := by
    have hcast : (m : ℚ) < k + 2 := by linarith
    have hlt' : m < k + 2 := by exact_mod_cast hcast
    omega
  have hround := rnd_lt_natCast (n := m + n) (by omega) (hproduct (m + n))
    (mul_le_mul_of_nonneg_left (by norm_num; linarith) (Nat.cast_nonneg _))
  rw [heq] at hround hsum
  push_cast at hround hsum
  linarith

/-- Three quarters are floored exactly. -/
theorem scaled_three_quarters {w n : ℕ} (hn : n ≤ 2 ^ 51) (hw : n < 2 ^ w) :
    scaled w (3 / 4) n = 3 * n / 4 := by
  have hexact : rnd ((n : ℚ) * (3 / 4)) = ((3 * n : ℕ) : ℚ) / (4 : ℕ) := by
    have hsame : (n : ℚ) * (3 / 4) = ((3 * n : ℕ) : ℚ) / (4 : ℕ) := by
      push_cast
      ring
    rw [hsame]
    refine round_of_representable (by norm_num)
      ⟨(3 * n : ℕ), -2, ?_, by norm_num, ?_⟩
    · rw [abs_of_nonneg (by positivity)]
      exact_mod_cast (show 3 * n ≤ 2 ^ 53 by omega)
    · norm_num
      ring
  rw [scaled_eq_floor (by norm_num) (by omega) hw, hexact,
    Nat.floor_div_eq_div]

/-- Up to there the factor one is exact. -/
theorem scaled_one {w n : ℕ} (hn : n ≤ 2 ^ 53) (hw : n < 2 ^ w) :
    scaled w 1 n = n := by
  unfold scaled
  rw [mul_one, rnd_rnd, rnd_natCast hn, trunc_natCast]
  omega

-- =================================================== common expressions

/-- A duration of nanoseconds in seconds: whole seconds and the rest are
converted one by one. -/
def asSecs (nanos : ℕ) : ℚ :=
  rnd (rnd (nanos / 1000000000 : ℕ)
    + rnd ((nanos % 1000000000 : ℕ) / 1000000000))

theorem asSecs_pos {nanos : ℕ} (h : 0 < nanos) : 0 < asSecs nanos := by
  -- whichever part is not zero, it is at least a power of two
  have hleast : (2 : ℚ) ^ (-30 : ℤ)
      ≤ rnd (nanos / 1000000000 : ℕ)
        + rnd ((nanos % 1000000000 : ℕ) / 1000000000) := by
    rcases Nat.eq_zero_or_pos (nanos / 1000000000) with hzero | hpos
    · have hrest : 1 ≤ nanos % 1000000000 := by omega
      have hcast : (1 : ℚ) ≤ (nanos % 1000000000 : ℕ) := by
        exact_mod_cast hrest
      have hfrac : (2 : ℚ) ^ (-30 : ℤ)
          ≤ rnd ((nanos % 1000000000 : ℕ) / 1000000000) := by
        refine le_rnd (rnd_two_zpow (by norm_num)) ?_
        rw [le_div_iff₀ (by norm_num)]
        norm_num
        linarith
      rw [hzero, Nat.cast_zero, rnd_zero, zero_add]
      exact hfrac
    · have hcast : (1 : ℚ) ≤ (nanos / 1000000000 : ℕ) := by
        exact_mod_cast hpos
      have hwhole := le_rnd rnd_one hcast
      have hfrac : 0 ≤ rnd ((nanos % 1000000000 : ℕ) / 1000000000) :=
        rnd_nonneg (by positivity)
      norm_num at hwhole hfrac ⊢
      linarith
  have hle := le_rnd (rnd_two_zpow (by norm_num)) hleast
  exact lt_of_lt_of_le (by positivity) hle

/-- Whole seconds are exact. -/
theorem asSecs_seconds {secs : ℕ} (h : secs ≤ 2 ^ 53) :
    asSecs (secs * 1000000000) = secs := by
  unfold asSecs
  rw [Nat.mul_mod_left, Nat.mul_div_cancel _ (by norm_num), Nat.cast_zero,
    zero_div, rnd_zero, add_zero, rnd_rnd, rnd_natCast h]

/-- The weighted mean `alpha * a + (1.0 - alpha) * b` of two integers. -/
def mix (alpha : ℚ) (a b : ℕ) : ℚ :=
  rnd (rnd (alpha * rnd a) + rnd (rnd (1 - alpha) * rnd b))

end Binary64

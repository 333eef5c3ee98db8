/-
Accounts of a total and a part of it, one behind another.

Two accounts add the same counts to total and part and now and then
shrink both, in whole numbers. One of them forgets sooner: its total is
the smaller one, and what its part lacks of the other's share of its
total is the lag (`Behind`). Counts that are added to both lower the lag
(`Behind.add`); each division with a remainder may raise it, by less
than a packet on either side (`Behind.shrink`, `Behind.scale`,
`Behind.halve`). So the missing shares of the two differ by no more than
the lag, and in whole parts by at most one while the total is large
enough (`Behind.missing`).
-/
import Mathlib.Algebra.Order.Field.Basic
import Mathlib.Tactic.Linarith
import Mathlib.Tactic.FieldSimp
import Mathlib.Tactic.Ring

namespace Share

variable {K : Type*} [Field K] [LinearOrder K] [IsStrictOrderedRing K]
  {y z : K} {t r t' r' : Nat}

/-- What the part of `(t, r)` lacks of the share of `(t', r')`. A part
counts up to its total. -/
def lag (K : Type*) [Field K] (t r t' r' : Nat) : K :=
  t * (min r' t' : Nat) / t' - r

/-- The account `(t, r)` has a total of at most the other one's, and its
part is within `y` of the other's share of that total. -/
structure Behind (y : K) (t r t' r' : Nat) : Prop where
  nonneg : 0 ≤ y
  total : t ≤ t'
  lag : (t : K) * (min r' t' : Nat) ≤ (r + y) * t'

/-- An account is not behind itself. -/
theorem Behind.refl (h : 0 ≤ y) (t r : Nat) : Behind y t r t r where
  nonneg := h
  total := Nat.le_refl t
  lag := by
    have hpart : ((min r t : Nat) : K) ≤ r :=
      Nat.cast_le.mpr (min_le_left r t)
    have ht : (0 : K) ≤ t := Nat.cast_nonneg t
    calc (t : K) * (min r t : Nat) ≤ t * (r + y) :=
          mul_le_mul_of_nonneg_left (by linarith) ht
      _ = (r + y) * t := mul_comm _ _

/-- An account that is not longer is behind by its lag. -/
theorem behind_lag (h : t ≤ t') (r r' : Nat) :
    Behind (max 0 (lag K t r t' r')) t r t' r' where
  nonneg := le_max_left _ _
  total := h
  lag := by
    rcases Nat.eq_zero_or_pos t' with hzero | hpos
    · have ht : t = 0 := Nat.le_zero.mp (hzero ▸ h)
      simp [hzero, ht]
    · have ht' : (0 : K) < t' := Nat.cast_pos.mpr hpos
      rw [← div_le_iff₀ ht']
      have hle := le_max_right 0 (Share.lag K t r t' r')
      unfold Share.lag at hle ⊢
      linarith

theorem Behind.lag_le (h : Behind y t r t' r') :
    Share.lag K t r t' r' ≤ y := by
  unfold Share.lag
  rcases Nat.eq_zero_or_pos t' with hzero | hpos
  · have hr : (0 : K) ≤ r := Nat.cast_nonneg r
    have hy := h.nonneg
    simp only [hzero, Nat.cast_zero, div_zero]
    linarith
  · have ht' : (0 : K) < t' := Nat.cast_pos.mpr hpos
    have hquot := (div_le_iff₀ ht').mpr h.lag
    linarith

theorem Behind.mono (h : Behind y t r t' r') (hle : y ≤ z) :
    Behind z t r t' r' where
  nonneg := h.nonneg.trans hle
  total := h.total
  lag := by
    have ht : (0 : K) ≤ t' := Nat.cast_nonneg t'
    exact h.lag.trans (mul_le_mul_of_nonneg_right (by linarith) ht)

/-- The share of a positive total, read without the product. -/
private theorem Behind.full (h : Behind y t r t' r') (hpos : 0 < t')
    (hfull : t' ≤ r') : (t : K) ≤ r + y := by
  have ht : (0 : K) < t' := Nat.cast_pos.mpr hpos
  have hlag := h.lag
  rw [Nat.min_eq_right hfull] at hlag
  exact le_of_mul_le_mul_right hlag ht

-- ================================================================= counts

/-- Counts added to totals and parts alike do not raise the lag. -/
theorem Behind.add (h : Behind y t r t' r') (n : Nat) :
    Behind y (t + n) (r + n) (t' + n) (r' + n) where
  nonneg := h.nonneg
  total := Nat.add_le_add_right h.total n
  lag := by
    have hmin : min (r' + n) (t' + n) = min r' t' + n := by omega
    have hpart : min r' t' ≤ t' := Nat.min_le_right r' t'
    have hlag := h.lag
    have htotal := h.total
    have hnonneg := h.nonneg
    rw [hmin]
    generalize min r' t' = m at hlag hpart
    have hm : (m : K) ≤ t' := Nat.cast_le.mpr hpart
    have ht : (t : K) ≤ t' := Nat.cast_le.mpr htotal
    have hn : (0 : K) ≤ n := Nat.cast_nonneg n
    have hr : (0 : K) ≤ r := Nat.cast_nonneg r
    -- what the totals differ by is not made up for by the counts
    have hgain : (t : K) + m - t' ≤ r + y := by
      rcases Nat.eq_zero_or_pos t' with hzero | hpos
      · have hm0 : (m : K) ≤ 0 := by simpa [hzero] using hm
        have ht0 : (t : K) ≤ 0 := by simpa [hzero] using ht
        have ht' : (0 : K) ≤ t' := Nat.cast_nonneg t'
        linarith
      · have ht' : (0 : K) < t' := Nat.cast_pos.mpr hpos
        have hgap : 0 ≤ ((t' : K) - t) * (t' - m) :=
          mul_nonneg (by linarith) (by linarith)
        refine le_of_mul_le_mul_right ?_ ht'
        calc ((t : K) + m - t') * t' ≤ t * m := by linarith
          _ ≤ (r + y) * t' := hlag
    have hscaled := mul_le_mul_of_nonneg_left hgain hn
    push_cast
    linarith

-- ============================================================== shrinking

/-- What is left when one part in `k` is dropped. -/
def keep (k n : Nat) : Nat := n - n / k

theorem keep_mono {k : Nat} (hk : 0 < k) : Monotone (keep k) := by
  intro m n h
  unfold keep
  have hquotient : n / k ≤ m / k + (n - m) := by
    calc n / k ≤ (m + (n - m) * k) / k := by
          refine Nat.div_le_div_right ?_
          have hgap : n - m ≤ (n - m) * k := Nat.le_mul_of_pos_right _ hk
          omega
      _ = m / k + (n - m) := Nat.add_mul_div_right _ _ hk
  have hm : m / k ≤ m := Nat.div_le_self m k
  omega

/-- The quotient and its remainder, in the field. -/
private theorem div_bounds {k : Nat} (hk : 0 < k) (n : Nat) :
    ((n / k : Nat) : K) ≤ n / k ∧ ((n : K) + 1) / k ≤ (n / k : Nat) + 1 := by
  have hpos : (0 : K) < k := Nat.cast_pos.mpr hk
  have hbelow : n / k * k ≤ n := Nat.div_mul_le_self n k
  have habove : n + 1 ≤ (n / k + 1) * k := by
    rw [Nat.mul_comm]
    exact Nat.lt_mul_div_succ n hk
  constructor
  · rw [le_div_iff₀ hpos]
    exact_mod_cast hbelow
  · rw [div_le_iff₀ hpos]
    exact_mod_cast habove

/-- Both bounds on what is kept. -/
private theorem keep_bounds {k : Nat} (hk : 0 < k) (n : Nat) :
    (1 - 1 / (k : K)) * n ≤ keep k n
      ∧ (keep k n : K) ≤ (1 - 1 / (k : K)) * (n + 1) := by
  obtain ⟨hbelow, habove⟩ := div_bounds (K := K) hk n
  have hcast : ((keep k n : Nat) : K) = n - (n / k : Nat) :=
    Nat.cast_sub (Nat.div_le_self n k)
  rw [hcast]
  constructor
  · calc (1 - 1 / (k : K)) * n = n - n / k := by ring
      _ ≤ n - (n / k : Nat) := by linarith
  · calc (n : K) - (n / k : Nat) ≤ n + 1 - ((n : K) + 1) / k := by linarith
      _ = (1 - 1 / (k : K)) * (n + 1) := by ring

/-- Dropping one part in `k` of all four shrinks the lag with them; the
remainders add less than two. -/
theorem Behind.shrink (h : Behind y t r t' r') {k : Nat} (hk : 0 < k) :
    Behind ((1 - 1 / (k : K)) * (y + 2)) (keep k t) (keep k r) (keep k t')
      (keep k r') := by
  have hone : (1 : K) ≤ k := Nat.one_le_cast.mpr hk
  have hc : (0 : K) ≤ 1 - 1 / (k : K) := by
    have hle : 1 / (k : K) ≤ 1 := by
      rw [div_le_one (by linarith)]
      exact hone
    linarith
  have hnonneg := h.nonneg
  refine ⟨mul_nonneg hc (by linarith), keep_mono hk h.total, ?_⟩
  rcases Nat.eq_zero_or_pos t' with hzero | hpos
  · have ht : t = 0 := Nat.le_zero.mp (hzero ▸ h.total)
    simp [hzero, ht, keep]
  have ht' : (0 : K) < t' := Nat.cast_pos.mpr hpos
  obtain ⟨-, htop⟩ := keep_bounds (K := K) hk t
  obtain ⟨hpart, -⟩ := keep_bounds (K := K) hk r
  obtain ⟨hother, -⟩ := keep_bounds (K := K) hk t'
  have hother0 : (0 : K) ≤ keep k t' := Nat.cast_nonneg _
  rw [← (keep_mono hk).map_min]
  rcases Nat.lt_or_ge r' t' with hpartial | hfull
  · obtain ⟨-, hround⟩ := keep_bounds (K := K) hk r'
    have hlag := h.lag
    rw [Nat.min_eq_left hpartial.le] at hlag ⊢
    have hnext : (r' : K) + 1 ≤ t' := by exact_mod_cast hpartial
    have htotal : (t : K) ≤ t' := Nat.cast_le.mpr h.total
    have hround0 : (0 : K) ≤ keep k r' := Nat.cast_nonneg _
    have hlack : (0 : K) ≤ r + y + 2 := by
      have hr : (0 : K) ≤ r := Nat.cast_nonneg r
      linarith
    -- either remainder costs one of the other total at most
    have hproduct : ((t : K) + 1) * (r' + 1) ≤ (r + y + 2) * t' := by
      linarith
    calc (keep k t : K) * keep k r'
        ≤ (1 - 1 / (k : K)) * (t + 1) * ((1 - 1 / (k : K)) * (r' + 1)) :=
          mul_le_mul htop hround hround0 (mul_nonneg hc (by positivity))
      _ = (1 - 1 / (k : K)) * (1 - 1 / (k : K)) * ((t + 1) * (r' + 1)) := by
          ring
      _ ≤ (1 - 1 / (k : K)) * (1 - 1 / (k : K)) * ((r + y + 2) * t') :=
          mul_le_mul_of_nonneg_left hproduct (mul_nonneg hc hc)
      _ = (1 - 1 / (k : K)) * (r + y + 2) * ((1 - 1 / (k : K)) * t') := by
          ring
      _ ≤ (1 - 1 / (k : K)) * (r + y + 2) * keep k t' :=
          mul_le_mul_of_nonneg_left hother (mul_nonneg hc hlack)
      _ ≤ (keep k r + (1 - 1 / (k : K)) * (y + 2)) * keep k t' := by
          refine mul_le_mul_of_nonneg_right ?_ hother0
          linarith
  · -- the other part is all of its total: nothing is rounded there
    have hshare := h.full hpos hfull
    have hscaled := mul_le_mul_of_nonneg_left hshare hc
    rw [Nat.min_eq_right hfull]
    exact mul_le_mul_of_nonneg_right (by linarith) hother0

-- ================================================================ scaling

/-- Scaling the account that is behind scales the lag; what the total is
above its product and the part below adds to it. -/
theorem Behind.scale (h : Behind y t r t' r') {c e f : K} (hc : 0 ≤ c)
    (he : 0 ≤ e) (hf : 0 ≤ f) {t₁ r₁ : Nat} (hle : t₁ ≤ t)
    (htotal : (t₁ : K) ≤ c * t + e) (hpart : c * r ≤ r₁ + f) :
    Behind (c * y + e + f) t₁ r₁ t' r' where
  nonneg := by
    have hy := mul_nonneg hc h.nonneg
    linarith
  total := hle.trans h.total
  lag := by
    have ht' : (0 : K) ≤ t' := Nat.cast_nonneg t'
    have hm : (0 : K) ≤ (min r' t' : Nat) := Nat.cast_nonneg _
    have hmin : ((min r' t' : Nat) : K) ≤ t' :=
      Nat.cast_le.mpr (Nat.min_le_right r' t')
    calc (t₁ : K) * (min r' t' : Nat) ≤ (c * t + e) * (min r' t' : Nat) :=
          mul_le_mul_of_nonneg_right htotal hm
      _ = c * (t * (min r' t' : Nat)) + e * (min r' t' : Nat) := by ring
      _ ≤ c * ((r + y) * t') + e * t' :=
          add_le_add (mul_le_mul_of_nonneg_left h.lag hc)
            (mul_le_mul_of_nonneg_left hmin he)
      _ = (c * r + (c * y + e)) * t' := by ring
      _ ≤ (r₁ + (c * y + e + f)) * t' :=
          mul_le_mul_of_nonneg_right (by linarith) ht'

/-- Dropping one part in `k` of the account that is behind. -/
theorem Behind.shrink_left (h : Behind y t r t' r') {k : Nat} (hk : 0 < k) :
    Behind ((1 - 1 / (k : K)) * (y + 1)) (keep k t) (keep k r) t' r' := by
  have hone : (1 : K) ≤ k := Nat.one_le_cast.mpr hk
  have hc : (0 : K) ≤ 1 - 1 / (k : K) := by
    have hle : 1 / (k : K) ≤ 1 := by
      rw [div_le_one (by linarith)]
      exact hone
    linarith
  have htotal := (keep_bounds (K := K) hk t).2
  have hpart := (keep_bounds (K := K) hk r).1
  rw [mul_add, mul_one] at htotal
  rw [← add_zero (keep k r : K)] at hpart
  have hkept := h.scale hc hc le_rfl (Nat.sub_le t (t / k)) htotal hpart
  refine hkept.mono (le_of_eq ?_)
  rw [mul_add, mul_one, add_zero]

private theorem half_bounds (n : Nat) :
    ((n / 2 : Nat) : K) ≤ 1 / 2 * n
      ∧ 1 / 2 * (n : K) ≤ (n / 2 : Nat) + 1 / 2 := by
  obtain ⟨hbelow, habove⟩ := div_bounds (K := K) Nat.two_pos n
  push_cast at hbelow habove
  constructor
  · linarith
  · linarith

/-- Halving the account that is behind. -/
theorem Behind.halve_left (h : Behind y t r t' r') :
    Behind (1 / 2 * y + 1) (t / 2) (r / 2) t' r' := by
  have htotal := (half_bounds (K := K) t).1
  have hpart := (half_bounds (K := K) r).2
  have hhalf := h.scale (c := 1 / 2) (e := 0) (f := 1 / 2) (by norm_num)
    le_rfl (by norm_num) (Nat.div_le_self t 2) (by linarith) hpart
  exact hhalf.mono (by linarith)

/-- A part below its total, both halved: the remainder gains less than
one. -/
private theorem half_mul_le {m n : Nat} (h : m < n) :
    m / 2 * n ≤ (m + 1) * (n / 2) := by
  have hm : m / 2 * 2 ≤ m := Nat.div_mul_le_self m 2
  rcases Nat.even_or_odd' n with ⟨q, rfl | rfl⟩
  · rw [Nat.mul_div_cancel_left q Nat.two_pos]
    calc m / 2 * (2 * q) = m / 2 * 2 * q := by ring
      _ ≤ (m + 1) * q := Nat.mul_le_mul_right q (by omega)
  · have hq : (2 * q + 1) / 2 = q := by omega
    have hhalf : m / 2 ≤ q := by omega
    rw [hq]
    calc m / 2 * (2 * q + 1) = m / 2 * 2 * q + m / 2 := by ring
      _ ≤ m * q + q :=
          Nat.add_le_add (Nat.mul_le_mul_right q hm) hhalf
      _ = (m + 1) * q := by ring

/-- Halving both accounts. -/
theorem Behind.halve (h : Behind y t r t' r') :
    Behind (1 / 2 * y + 1) (t / 2) (r / 2) (t' / 2) (r' / 2) := by
  have hmono : Monotone fun n : Nat => n / 2 :=
    fun _ _ hle => Nat.div_le_div_right hle
  have hnonneg := h.nonneg
  refine ⟨by linarith, hmono h.total, ?_⟩
  rcases Nat.eq_zero_or_pos t' with hzero | hpos
  · have ht : t = 0 := Nat.le_zero.mp (hzero ▸ h.total)
    simp [hzero, ht]
  have ht' : (0 : K) < t' := Nat.cast_pos.mpr hpos
  obtain ⟨htop, -⟩ := half_bounds (K := K) t
  obtain ⟨-, hpart⟩ := half_bounds (K := K) r
  have hother0 : (0 : K) ≤ (t' / 2 : Nat) := Nat.cast_nonneg _
  have hmin : min (r' / 2) (t' / 2) = min r' t' / 2 := hmono.map_min.symm
  rw [hmin]
  rcases Nat.lt_or_ge r' t' with hpartial | hfull
  · have hlag := h.lag
    rw [Nat.min_eq_left hpartial.le] at hlag ⊢
    have htotal : (t : K) ≤ t' := Nat.cast_le.mpr h.total
    have hgain : ((r' / 2 : Nat) : K) * t' ≤ (r' + 1) * (t' / 2 : Nat) := by
      exact_mod_cast half_mul_le hpartial
    have ht : (0 : K) ≤ t := Nat.cast_nonneg t
    have hround0 : (0 : K) ≤ (r' / 2 : Nat) := Nat.cast_nonneg _
    refine le_of_mul_le_mul_right ?_ ht'
    calc ((t / 2 : Nat) : K) * (r' / 2 : Nat) * t'
        ≤ 1 / 2 * t * (r' / 2 : Nat) * t' :=
          mul_le_mul_of_nonneg_right
            (mul_le_mul_of_nonneg_right htop hround0) ht'.le
      _ = 1 / 2 * t * ((r' / 2 : Nat) * t') := by ring
      _ ≤ 1 / 2 * t * ((r' + 1) * (t' / 2 : Nat)) :=
          mul_le_mul_of_nonneg_left hgain (by linarith)
      _ = 1 / 2 * (t * r' + t) * (t' / 2 : Nat) := by ring
      _ ≤ 1 / 2 * ((r + y) * t' + t') * (t' / 2 : Nat) :=
          mul_le_mul_of_nonneg_right (by linarith) hother0
      _ = (1 / 2 * r + 1 / 2 * y + 1 / 2) * (t' / 2 : Nat) * t' := by ring
      _ ≤ ((r / 2 : Nat) + (1 / 2 * y + 1)) * (t' / 2 : Nat) * t' := by
          refine mul_le_mul_of_nonneg_right ?_ ht'.le
          exact mul_le_mul_of_nonneg_right (by linarith) hother0
  · have hshare := h.full hpos hfull
    rw [Nat.min_eq_right hfull]
    exact mul_le_mul_of_nonneg_right (by linarith) hother0

-- ================================================================= missing

/-- What is missing from the account that is behind, in `c`-ths of its
total, is at most one more than the other one misses, while `c` times the
lag is within the total. -/
theorem Behind.missing (h : Behind y t r t' r') {c : Nat}
    (hlarge : c * y ≤ t) (hpos : 0 < t) :
    (t - r) * c / t ≤ (t' - r') * c / t' + 1 := by
  have hpos' : 0 < t' := Nat.lt_of_lt_of_le hpos h.total
  rcases Nat.le_total t r with hall | hsome
  · rw [Nat.sub_eq_zero_of_le hall, Nat.zero_mul, Nat.zero_div]
    exact Nat.zero_le _
  rw [← Nat.lt_add_one_iff, Nat.div_lt_iff_lt_mul hpos]
  have hquotient : (t' - min r' t') * c < ((t' - r') * c / t' + 1) * t' := by
    have hsame : t' - min r' t' = t' - r' := by omega
    rw [hsame, Nat.mul_comm _ t']
    exact Nat.lt_mul_div_succ _ hpos'
  have hlag := h.lag
  have hpart : min r' t' ≤ t' := Nat.min_le_right r' t'
  generalize (t' - r') * c / t' = q at hquotient ⊢
  generalize min r' t' = m at hquotient hlag hpart
  have ht : (0 : K) < t := Nat.cast_pos.mpr hpos
  have ht' : (0 : K) < t' := Nat.cast_pos.mpr hpos'
  have hc : (0 : K) ≤ c := Nat.cast_nonneg c
  have hmissing : ((t' : K) - m) * c < (q + 1) * t' := by
    have hcast : ((t' - m : Nat) : K) * c < ((q : K) + 1) * t' := by
      exact_mod_cast hquotient
    rwa [Nat.cast_sub hpart] at hcast
  have hgoal : ((t : K) - r) * c < (q + 1 + 1) * t := by
    refine lt_of_mul_lt_mul_right ?_ ht'.le
    calc ((t : K) - r) * c * t'
        = t * t' * c - r * t' * c := by ring
      _ ≤ t * t' * c - (t * m - y * t') * c := by
          have hscaled := mul_le_mul_of_nonneg_right hlag hc
          linarith
      _ = t * ((t' - m) * c) + c * y * t' := by ring
      _ < t * ((q + 1) * t') + t * t' :=
          add_lt_add_of_lt_of_le (mul_lt_mul_of_pos_left hmissing ht)
            (mul_le_mul_of_nonneg_right hlarge ht'.le)
      _ = (q + 1 + 1) * t * t' := by ring
  have hcast : (((t - r) * c : Nat) : K) < ((q + 1 + 1) * t : Nat) := by
    push_cast [Nat.cast_sub hsome]
    exact hgoal
  exact Nat.cast_lt.mp hcast

/-- The account that is behind misses no more than a bound, in `c`-ths of
its total, if the other one's missing part leaves room for the lag at the
least total that counts. -/
theorem Behind.missing_le (h : Behind y t r t' r') {c m bound : Nat}
    (hmin : m < t) (hroom : (c : K) * (t' - r' : Nat) * m + c * y * t'
      ≤ (bound + 1) * t' * m) (hlag : 0 < c * y) :
    (t - r) * c / t ≤ bound := by
  have hpos : 0 < t := Nat.zero_lt_of_lt hmin
  have hpos' : 0 < t' := Nat.lt_of_lt_of_le hpos h.total
  rcases Nat.le_total t r with hall | hsome
  · rw [Nat.sub_eq_zero_of_le hall, Nat.zero_mul, Nat.zero_div]
    exact Nat.zero_le _
  rw [← Nat.lt_add_one_iff, Nat.div_lt_iff_lt_mul hpos]
  have hpart : min r' t' ≤ t' := Nat.min_le_right r' t'
  have hsame : t' - r' = t' - min r' t' := by omega
  have hbehind := h.lag
  rw [hsame, Nat.cast_sub hpart] at hroom
  generalize min r' t' = q at hroom hbehind
  have ht' : (0 : K) < t' := Nat.cast_pos.mpr hpos'
  have hc : (0 : K) ≤ c := Nat.cast_nonneg c
  have hm : (0 : K) ≤ m := Nat.cast_nonneg m
  have htm : (m : K) < t := Nat.cast_lt.mpr hmin
  -- what the bound leaves beside the other one's missing part
  have hcost : 0 < c * y * t' := mul_pos hlag ht'
  have hleft : (0 : K) < (bound + 1) * t' - c * (t' - q) := by
    by_contra hnone
    have hnot := mul_nonpos_of_nonpos_of_nonneg (not_lt.mp hnone) hm
    linarith
  have hgrow := mul_lt_mul_of_pos_right htm hleft
  have hgoal : ((t : K) - r) * c < (bound + 1) * t := by
    refine lt_of_mul_lt_mul_right ?_ ht'.le
    have hscaled := mul_le_mul_of_nonneg_right hbehind hc
    linarith
  have hcast : (((t - r) * c : Nat) : K) < ((bound + 1) * t : Nat) := by
    push_cast [Nat.cast_sub hsome]
    exact hgoal
  exact Nat.cast_lt.mp hcast

end Share

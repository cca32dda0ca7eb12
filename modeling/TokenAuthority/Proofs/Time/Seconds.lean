import TokenAuthority.Time.Instant
import Mathlib.Data.Rat.Floor

/-!
# Whole seconds

An instant has a whole second and nanoseconds behind it, and comes before another if its
second does, or if the seconds are the same and its nanoseconds are fewer. A duration is
rounded up from its seconds with the rest cut off: one is added if the rest is above zero.
-/

namespace TokenAuthority

namespace Instant

/-- Instants in the order of time. A leap second comes before the second that follows it. -/
instance : LE Instant :=
  ⟨fun t u => t.seconds < u.seconds ∨ t.seconds = u.seconds ∧ t.nanos ≤ u.nanos⟩

theorem le_iff {t u : Instant} :
    t ≤ u ↔ t.seconds < u.seconds ∨ t.seconds = u.seconds ∧ t.nanos ≤ u.nanos :=
  Iff.rfl

instance : Preorder Instant where
  le_refl t := le_iff.mpr (Or.inr ⟨rfl, le_rfl⟩)
  le_trans t u v h h' := by
    rw [le_iff] at *
    omega

/-- A second has begun if the whole second of an instant is not before it. -/
theorem le_iff_of_nanos_eq_zero {t u : Instant} (h : t.nanos = 0) :
    t ≤ u ↔ t.seconds ≤ u.seconds := by
  rw [le_iff, h]
  omega

/-- The nanoseconds since the beginning of 1970. -/
def nanoseconds (t : Instant) : Int := t.seconds * 1000000000 + t.nanos

/-- The second of an instant is the last whole one, leap seconds left out. -/
theorem seconds_eq_floor {t : Instant} (h : t.nanos < 1000000000) :
    t.seconds = ⌊(t.nanoseconds : ℚ) / (1000000000 : ℕ)⌋ := by
  rw [Rat.floor_intCast_div_natCast, nanoseconds]
  omega

theorem ofSeconds?_eq_some_iff {n : Int} {t : Instant} :
    ofSeconds? n = some t ↔ t.seconds = n ∧ t.nanos = 0 := by
  obtain ⟨seconds, nanos, first_le, le_last, nanos_lt⟩ := t
  rw [ofSeconds?, of?]
  split
  · simp [eq_comm]
  · simp only [reduceCtorEq, false_iff]
    rintro ⟨rfl, rfl⟩
    omega

end Instant

namespace Duration

variable (d : Duration)

/-- The nanoseconds behind the whole seconds, with the sign of the duration. -/
def subsecond : Int := d.nanoseconds.tmod 1000000000

theorem seconds_add_subsecond : d.seconds * 1000000000 + d.subsecond = d.nanoseconds := by
  rw [seconds, subsecond, Int.mul_comm]
  exact Int.mul_tdiv_add_tmod _ _

theorem subsecond_of_nonneg (h : 0 ≤ d.nanoseconds) :
    0 ≤ d.subsecond ∧ d.subsecond < 1000000000 := by
  rw [subsecond, Int.tmod_eq_emod_of_nonneg h]
  omega

theorem subsecond_of_nonpos (h : d.nanoseconds ≤ 0) :
    -1000000000 < d.subsecond ∧ d.subsecond ≤ 0 := by
  have hneg := Int.neg_tmod d.nanoseconds 1000000000
  have hemod := Int.tmod_eq_emod_of_nonneg (a := -d.nanoseconds) (by omega) (b := 1000000000)
  rw [subsecond]
  omega

/-- Rounding up adds one to the whole seconds if there is a rest above zero. -/
theorem secondsUp_eq :
    d.secondsUp = if 0 < d.subsecond then d.seconds + 1 else d.seconds := by
  have hsum := d.seconds_add_subsecond
  rw [secondsUp]
  -- The rest has the sign of the duration, so that it is only above zero on one side.
  obtain h | h := Int.le_total 0 d.nanoseconds
  · have hrest := d.subsecond_of_nonneg h
    split_ifs <;> omega
  · have hrest := d.subsecond_of_nonpos h
    split_ifs <;> omega

theorem secondsUp_eq_ceil : d.secondsUp = ⌈(d.nanoseconds : ℚ) / (1000000000 : ℕ)⌉ :=
  (Rat.ceil_intCast_div_natCast d.nanoseconds 1000000000).symm

theorem secondsUp_pos_iff : 0 < d.secondsUp ↔ 0 < d.nanoseconds := by
  rw [secondsUp]
  omega

theorem seconds_bounds : -2 ^ 54 < d.seconds ∧ d.seconds < 2 ^ 54 := by
  have hsum := d.seconds_add_subsecond
  have hlongest : longest = 9223372036854775807 := rfl
  have hlow := d.neg_le
  have hhigh := d.le_longest
  rw [hlongest] at hlow hhigh
  obtain h | h := Int.le_total 0 d.nanoseconds
  · have hrest := d.subsecond_of_nonneg h
    omega
  · have hrest := d.subsecond_of_nonpos h
    omega

end Duration

end TokenAuthority

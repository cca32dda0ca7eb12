import TokenAuthority.Time.Calendar
import Mathlib.Tactic.IntervalCases

/-!
# Days and dates

Every number of days gives a day of the calendar, and the day gives the number back. An
era of 400 years has 146097 days. Counted from March, it consists of four centuries, a
century of twenty-five times four years, and the day that a leap year adds is the last of
four years; the last century is a day longer than the others.
-/

namespace TokenAuthority.Date

/-! ### An era -/

/-- The year of an era in which a day of it lies, both counted from 0. -/
def eraYear (n : Int) : Int := (n - n / 1460 + n / 36524 - n / 146096) / 365

/-- How many days of an era lie before a year of it. -/
def eraDays (y : Int) : Int := 365 * y + y / 4 - y / 100

/-- A day of an era: its century, the four years of the century, the year among them, and
the day of the year. -/
structure EraDay (century four year day : Int) : Prop where
  century_nonneg : 0 ≤ century
  century_le : century ≤ 3
  four_nonneg : 0 ≤ four
  four_le : four ≤ 24
  year_nonneg : 0 ≤ year
  year_le : year ≤ 3
  day_nonneg : 0 ≤ day
  day_le : day ≤ 365
  leap : day = 365 → year = 3 ∧ (four = 24 → century = 3)

theorem exists_eraDay {n : Int} (h0 : 0 ≤ n) (h1 : n < 146097) :
    ∃ c f y d, EraDay c f y d ∧ n = 36524 * c + (1461 * f + (365 * y + d)) := by
  obtain ⟨c, m, hn, hc, hm⟩ : ∃ c m, n = 36524 * c + m ∧ (0 ≤ c ∧ c ≤ 3) ∧
      0 ≤ m ∧ m < 36524 + c / 3 := by
    by_cases hlast : n = 146096
    · exact ⟨3, 36524, by omega⟩
    · exact ⟨n / 36524, n % 36524, by omega⟩
  obtain ⟨f, r, hm', hf, hr⟩ : ∃ f r, m = 1461 * f + r ∧ (0 ≤ f ∧ f ≤ 24) ∧ 0 ≤ r ∧ r < 1461 :=
    ⟨m / 1461, m % 1461, by omega⟩
  by_cases hlast : r = 1460
  · exact ⟨c, f, 3, 365, ⟨by omega, by omega, by omega, by omega, by omega, by omega, by omega,
      by omega, by omega⟩, by omega⟩
  · exact ⟨c, f, r / 365, r % 365, ⟨by omega, by omega, by omega, by omega, by omega, by omega,
      by omega, by omega, by omega⟩, by omega⟩

theorem centuries {c m : Int} (hc : 0 ≤ c) (hc' : c ≤ 3) (hm : 0 ≤ m) (hm' : m ≤ 36524)
    (hlast : m = 36524 → c = 3) :
    (36524 * c + m) / 36524 - (36524 * c + m) / 146096 = c := by
  by_cases h : m = 36524
  · obtain rfl := hlast h
    omega
  · have hcentury : (36524 * c + m) / 36524 = c := by omega
    have hera : (36524 * c + m) / 146096 = 0 := by omega
    omega

theorem eraYear_eq {c f y d : Int} (h : EraDay c f y d) :
    eraYear (36524 * c + (1461 * f + (365 * y + d))) = 100 * c + 4 * f + y := by
  obtain ⟨hc, hc', hf, hf', hy, hy', hd, hd', hleap⟩ := h
  have hcenturies := centuries (m := 1461 * f + (365 * y + d)) hc hc' (by omega) (by omega)
    (by omega)
  -- Four years without the day that the last of them adds have 1460 days.
  have hfours : (36524 * c + (1461 * f + (365 * y + d))) / 1460 =
      25 * c + f + (24 * c + f + 365 * y + d) / 1460 := by omega
  have hfirst : d = 0 → (24 * c + f + 365 * y + d) / 1460 = 0 := by omega
  have hlast : d = 365 → (24 * c + f + 365 * y + d) / 1460 = 1 := by omega
  have hbounds : 0 ≤ (24 * c + f + 365 * y + d) / 1460 ∧
      (24 * c + f + 365 * y + d) / 1460 ≤ 1 := by omega
  unfold eraYear
  rw [hfours]
  generalize (24 * c + f + 365 * y + d) / 1460 = extra at *
  omega

theorem eraDays_eq {c f y : Int} (hf : 0 ≤ f) (hf' : f ≤ 24) (hy : 0 ≤ y) (hy' : y ≤ 3) :
    eraDays (100 * c + 4 * f + y) = 36524 * c + (1461 * f + 365 * y) := by
  unfold eraDays
  omega

/-- A day of an era lies in its year, of which it is the 366th only in a leap year. -/
theorem eraYear_spec {n : Int} (h0 : 0 ≤ n) (h1 : n < 146097) :
    0 ≤ eraYear n ∧ eraYear n ≤ 399 ∧ 0 ≤ n - eraDays (eraYear n) ∧
      n - eraDays (eraYear n) ≤ 365 ∧
      (n - eraDays (eraYear n) = 365 → isLeap (eraYear n + 1)) := by
  obtain ⟨c, f, y, d, h, rfl⟩ := exists_eraDay h0 h1
  rw [eraYear_eq h, eraDays_eq h.four_nonneg h.four_le h.year_nonneg h.year_le]
  obtain ⟨hc, hc', hf, hf', hy, hy', hd, hd', hleap⟩ := h
  refine ⟨by omega, by omega, by omega, by omega, ?_⟩
  intro hday
  obtain ⟨rfl, hcentury⟩ := hleap (by omega)
  simp only [isLeap, Bool.and_eq_true, Bool.or_eq_true, bne_iff_ne, beq_iff_eq]
  omega

/-! ### All days -/

theorem isLeap_add_era (y k : Int) : isLeap (k * 400 + y) = isLeap y := by
  unfold isLeap
  have h4 : (k * 400 + y) % 4 = y % 4 := by omega
  have h100 : (k * 400 + y) % 100 = y % 100 := by omega
  have h400 : (k * 400 + y) % 400 = y % 400 := by omega
  rw [h4, h100, h400]

/-- The month that begins so many months after March. -/
def ofMarch (m : Nat) : Nat := if m < 10 then m + 3 else m - 9

/-- A number of days, cut into eras, years and days of the year. -/
theorem ofDays_eq (n : Int) :
    ∃ (e y : Int) (d : Nat), 0 ≤ y ∧ y ≤ 399 ∧ d ≤ 365 ∧ (d = 365 → isLeap (y + 1)) ∧
      n + shift = e * 146097 + (eraDays y + d) ∧
      ofDays n = ⟨e * 400 + y + (if (5 * d + 2) / 153 < 10 then 0 else 1),
        ofMarch ((5 * d + 2) / 153), d - (153 * ((5 * d + 2) / 153) + 2) / 5 + 1⟩ := by
  obtain ⟨hy, hy', hd, hd', hleap⟩ := eraYear_spec (n := (n + shift) % 146097) (by omega) (by omega)
  refine ⟨(n + shift) / 146097, eraYear ((n + shift) % 146097),
    ((n + shift) % 146097 - eraDays (eraYear ((n + shift) % 146097))).toNat, hy, hy', by omega,
    fun h => hleap (by omega), by omega, rfl⟩

/-- The day of a number of days gives the number back. -/
theorem toDays_ofDays (n : Int) : (ofDays n).toDays = n := by
  obtain ⟨e, y, d, hy, hy', hd, -, hn, hdate⟩ := ofDays_eq n
  rw [hdate]
  have hmonth : (5 * d + 2) / 153 ≤ 11 := by omega
  have hstart : (153 * ((5 * d + 2) / 153) + 2) / 5 ≤ d := by omega
  generalize (5 * d + 2) / 153 = m at *
  have hmarch : (ofMarch m + 9) % 12 = m := by
    unfold ofMarch
    split <;> omega
  have hyear : (if ofMarch m ≤ 2 then e * 400 + y + (if m < 10 then 0 else 1) - 1
      else e * 400 + y + (if m < 10 then 0 else 1)) = e * 400 + y := by
    unfold ofMarch
    split <;> split <;> omega
  simp only [toDays, hmarch, hyear]
  unfold eraDays at hn
  omega

/-- The day of a number of days is one of the calendar. -/
theorem isValid_ofDays (n : Int) : (ofDays n).isValid := by
  obtain ⟨e, y, d, -, -, hd, hleap, -, hdate⟩ := ofDays_eq n
  rw [hdate]
  have hlow : 153 * ((5 * d + 2) / 153) ≤ 5 * d + 2 := by omega
  have hhigh : 5 * d + 2 < 153 * ((5 * d + 2) / 153) + 153 := by omega
  have hmonth : (5 * d + 2) / 153 ≤ 11 := by omega
  generalize (5 * d + 2) / 153 = m at *
  simp only [isValid, Bool.and_eq_true, decide_eq_true_eq]
  by_cases hfebruary : m = 11
  · -- The year counted from March ends with February, and only a leap year has a 366th day.
    subst hfebruary
    have hsame : isLeap (e * 400 + y + 1) = isLeap (y + 1) := by
      rw [Int.add_assoc, isLeap_add_era]
    have hday : d - 337 + 1 ≤ if isLeap (e * 400 + y + 1) then 29 else 28 := by
      rw [hsame]
      by_cases hy : isLeap (y + 1)
      · rw [if_pos hy]
        omega
      · have hne : d ≠ 365 := fun h => hy (hleap h)
        rw [if_neg hy]
        omega
    exact ⟨⟨⟨by decide, by decide⟩, by omega⟩, hday⟩
  · have hlength : d - (153 * m + 2) / 5 + 1 ≤ daysIn
        (e * 400 + y + (if m < 10 then 0 else 1)) (ofMarch m) := by
      interval_cases m <;>
        simp only [ofMarch, daysIn, reduceIte, Nat.reduceLT, Nat.reduceAdd] <;> omega
    unfold ofMarch at *
    refine ⟨⟨⟨?_, ?_⟩, by omega⟩, hlength⟩ <;> split <;> omega

/-- The year of a day lies between those of the first and the last second there are. -/
theorem year_ofDays {n : Int} (hlow : firstSecond / 86400 ≤ n) (hhigh : n ≤ lastSecond / 86400) :
    -262143 ≤ (ofDays n).year ∧ (ofDays n).year ≤ 262142 := by
  obtain ⟨e, y, d, hy, hy', hd, -, hn, hdate⟩ := ofDays_eq n
  have hfirst : firstSecond / 86400 = -96465292 := by decide
  have hlast : lastSecond / 86400 = 95026236 := by decide
  rw [hfirst] at hlow
  rw [hlast] at hhigh
  rw [hdate]
  unfold eraDays shift at hn
  have he : -656 ≤ e ∧ e ≤ 655 := by omega
  -- The first year begins in January, so the year before it, counted from March, has days.
  have hfirstYear : e = -656 → 256 ≤ y ∧ (y = 256 → 306 ≤ d) := by omega
  have hlastYear : e = 655 → y ≤ 142 ∧ (y = 142 → d ≤ 305) := by omega
  dsimp only
  split <;> omega

end TokenAuthority.Date

/-!
# Instants and durations

An instant is a second since the beginning of 1970 and the nanoseconds behind it; a
duration is a number of nanoseconds. Both have bounds, and they are part of the types.
A clock shows fewer instants than there are.
-/

namespace TokenAuthority

/-- The first second there is. -/
def firstSecond : Int := -8334601228800

/-- The last second there is. -/
def lastSecond : Int := 8210266876799

/-- A point in time. Nanoseconds from `10 ^ 9` on belong to a leap second. -/
structure Instant where
  seconds : Int
  nanos : Nat
  first_le : firstSecond ≤ seconds := by omega
  le_last : seconds ≤ lastSecond := by omega
  nanos_lt : nanos < 2000000000 := by omega
  deriving DecidableEq

namespace Instant

/-- The instant with the given parts, if they are within the bounds. -/
def of? (seconds : Int) (nanos : Nat) : Option Instant :=
  if h : firstSecond ≤ seconds ∧ seconds ≤ lastSecond ∧ nanos < 2000000000 then
    some ⟨seconds, nanos, h.1, h.2.1, h.2.2⟩
  else none

/-- The instant at which a second begins. -/
def ofSeconds? (seconds : Int) : Option Instant :=
  of? seconds 0

theorem ofSeconds?_eq_none_iff (n : Int) :
    ofSeconds? n = none ↔ n < firstSecond ∨ lastSecond < n := by
  simp [ofSeconds?, of?]; omega

/-- The beginning of 1970. -/
def epoch : Instant := ⟨0, 0, by decide, by decide, by decide⟩

instance : Inhabited Instant := ⟨epoch⟩

end Instant

/-- What a clock shows: an instant from the beginning of 1970 on, and no leap second. -/
structure Moment extends Instant where
  zero_le : 0 ≤ seconds
  nanos_lt_second : nanos < 1000000000
  deriving DecidableEq

namespace Moment

instance : Coe Moment Instant := ⟨Moment.toInstant⟩

/-- The instant with the given parts, if a clock can show it. -/
def of? (seconds : Int) (nanos : Nat) : Option Moment :=
  if h : 0 ≤ seconds ∧ seconds ≤ lastSecond ∧ nanos < 1000000000 then
    some
      { seconds := seconds
        nanos := nanos
        first_le := Int.le_trans (by decide) h.1
        le_last := h.2.1
        nanos_lt := Nat.lt_trans h.2.2 (by decide)
        zero_le := h.1
        nanos_lt_second := h.2.2 }
  else none

/-- The beginning of 1970. -/
def epoch : Moment := ⟨.epoch, by decide, by decide⟩

instance : Inhabited Moment := ⟨epoch⟩

end Moment

/-- The largest number of milliseconds in a duration. -/
def longest : Int := (1 <<< 63 : Nat) - 1

/-- A length of time, which may be negative. -/
structure Duration where
  nanoseconds : Int
  neg_le : -(longest * 1000000) ≤ nanoseconds := by omega
  le_longest : nanoseconds ≤ longest * 1000000 := by omega
  deriving DecidableEq, Repr

namespace Duration

/-- The duration of so many nanoseconds, if it is within the bounds. -/
def ofNanoseconds? (n : Int) : Option Duration :=
  if h : -(longest * 1000000) ≤ n ∧ n ≤ longest * 1000000 then some ⟨n, h.1, h.2⟩ else none

/-- The duration of so many seconds, if it is within the bounds. -/
def ofSeconds? (n : Int) : Option Duration :=
  ofNanoseconds? (n * 1000000000)

/-- Whole milliseconds, the rest cut off. -/
def milliseconds (d : Duration) : Int := d.nanoseconds.tdiv 1000000

/-- Whole seconds, the rest cut off. -/
def seconds (d : Duration) : Int := d.nanoseconds.tdiv 1000000000

/-- The least number of whole seconds that is not shorter. -/
def secondsUp (d : Duration) : Int := -(-d.nanoseconds / 1000000000)

/-- A duration as text: a sign if it is negative, and the seconds of a period with the digits
behind the point that they need. -/
def text (d : Duration) : String :=
  let n := d.nanoseconds.natAbs
  -- A one in front of the nine digits keeps the zeros that they begin with.
  let fraction := ((toString (n % 1000000000 + 1000000000)).toList.drop 1).reverse.dropWhile
    (· == '0')
  if n = 0 then "P0D"
  else (if d.nanoseconds < 0 then "-" else "") ++ "PT" ++ toString (n / 1000000000) ++
    (if fraction = [] then "" else "." ++ String.ofList fraction.reverse) ++ "S"

/-- The duration cut off at whole milliseconds. -/
def cut (d : Duration) : Duration where
  nanoseconds := d.milliseconds * 1000000
  neg_le := by
    have := d.neg_le
    have := d.le_longest
    unfold milliseconds
    rcases Int.le_total 0 d.nanoseconds with h | h
    · have := Int.tdiv_nonneg h (b := 1000000) (by omega)
      have : 0 ≤ longest := by decide
      omega
    · have h1 := Int.neg_tdiv d.nanoseconds 1000000
      have h2 := Int.tdiv_eq_ediv_of_nonneg (a := -d.nanoseconds) (b := 1000000) (by omega)
      omega
  le_longest := by
    have := d.neg_le
    have := d.le_longest
    unfold milliseconds
    rcases Int.le_total 0 d.nanoseconds with h | h
    · have h2 := Int.tdiv_eq_ediv_of_nonneg (a := d.nanoseconds) (b := 1000000) h
      omega
    · have h1 := Int.neg_tdiv d.nanoseconds 1000000
      have h2 := Int.tdiv_nonneg (a := -d.nanoseconds) (b := 1000000) (by omega) (by omega)
      have : 0 ≤ longest := by decide
      omega

end Duration

end TokenAuthority

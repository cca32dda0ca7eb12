import TokenAuthority.Proofs.Json.Number
import TokenAuthority.Proofs.Time.Calendar
import TokenAuthority.Time.Rfc3339

/-!
# Reading back instants

An instant is read back from its text, with its nanoseconds and also if its year takes
more than four digits. A leap second is read back if it is the last second of a minute.
-/

namespace TokenAuthority

/-- A leap second can only be the last second of its minute. -/
def Instant.OnClock (t : Instant) : Prop :=
  t.nanos < 1000000000 ∨ t.seconds % 60 = 59

namespace Rfc3339

/-! ### Digits -/

theorem value_eq_ofDigitChars (ds : List Char) : value ds = Nat.ofDigitChars 10 ds 0 := by
  unfold value Nat.ofDigitChars
  congr 1
  funext n c
  rw [Nat.mul_comm]
  rfl

theorem isDigit_of_mem_padded {width n : Nat} {c : Char} (hc : c ∈ padded width n) :
    c.isDigit := by
  rw [padded, List.mem_append, List.mem_replicate] at hc
  rcases hc with ⟨-, rfl⟩ | hc
  · rfl
  · rw [Nat.toString_eq_repr, Nat.toList_repr] at hc
    exact Nat.isDigit_of_mem_toDigits (by decide) (by decide) hc

theorem padded_ne_nil (width n : Nat) : padded width n ≠ [] := by
  rw [padded, Nat.toString_eq_repr, Nat.toList_repr]
  exact List.append_ne_nil_of_right_ne_nil _ Nat.toDigits_ne_nil

theorem value_padded (width n : Nat) : value (padded width n) = n := by
  rw [value_eq_ofDigitChars, padded, Nat.ofDigitChars_append, Nat.ofDigitChars_replicate_zero,
    Nat.toString_eq_repr, Nat.toList_repr, Nat.mul_zero]
  exact Nat.ofDigitChars_ten_toDigits

theorem length_padded {width n : Nat} (hwidth : 0 < width) (hn : n < 10 ^ width) :
    (padded width n).length = width := by
  have hlength := (Nat.length_toDigits_le_iff (b := 10) (by decide) hwidth).mpr hn
  rw [padded, Nat.toString_eq_repr, Nat.toList_repr, List.length_append, List.length_replicate]
  omega

theorem not_isBlank_of_isDigit {c : Char} (h : c.isDigit) : ¬Text.isBlank c := by
  have hc := Json.toNat_of_isDigit h
  simp only [Text.isBlank, Bool.or_eq_true, Bool.and_eq_true, decide_eq_true_eq, beq_iff_eq]
  omega

/-- Digits are not passed over with the blanks in front of them. -/
theorem trimStart_digits {ds : List Char} (hds : ∀ c ∈ ds, c.isDigit) (hne : ds ≠ [])
    (rest : List Char) : Text.trimStart (ds ++ rest) = ds ++ rest := by
  obtain ⟨c, ds, rfl⟩ := List.exists_cons_of_ne_nil hne
  exact List.dropWhile_cons_of_neg (not_isBlank_of_isDigit (hds c List.mem_cons_self))

/-- A number is read from its digits if there is no room for more, or there are no more. -/
theorem number?_digits {width : Nat} {ds rest : List Char} (hds : ∀ c ∈ ds, c.isDigit)
    (hne : ds ≠ []) (hlength : ds.length ≤ width)
    (hrest : ds.length = width ∨ ∀ c ∈ rest.head?, ¬c.isDigit) :
    number? width (ds ++ rest) = some (value ds, rest) := by
  have htaken : ((ds ++ rest).take width).takeWhile Char.isDigit = ds := by
    rw [List.take_append, List.take_of_length_le hlength, List.takeWhile_append_of_pos hds]
    rcases hrest with heq | hend
    · rw [heq, Nat.sub_self, List.take_zero, List.takeWhile_nil, List.append_nil]
    · cases rest with
      | nil => simp
      | cons c rest =>
          cases width - ds.length with
          | zero => simp
          | succ n =>
              rw [List.take_succ_cons, List.takeWhile_cons_of_neg (hend c rfl), List.append_nil]
  rw [number?, htaken]
  rw [if_neg hne, List.drop_left]

/-! ### The parts of an instant -/

theorem field?_padded {low high n : Nat} (hlow : low ≤ n) (hhigh : n ≤ high) (hn : n < 100)
    (rest : List Char) : field? low high (padded 2 n ++ rest) = some (n, rest) := by
  have hds : ∀ c ∈ padded 2 n, c.isDigit := fun c => isDigit_of_mem_padded
  have hlength : (padded 2 n).length = 2 := length_padded (by decide) hn
  rw [field?, trimStart_digits hds (padded_ne_nil 2 n),
    number?_digits hds (padded_ne_nil 2 n) hlength.le (Or.inl hlength), value_padded]
  exact if_pos ⟨hlow, hhigh⟩

theorem mark?_cons {c : Char} (hc : ¬Text.isBlank c) (rest : List Char) :
    mark? c (c :: rest) = some rest := by
  have htrim : Text.trimStart (c :: rest) = c :: rest := List.dropWhile_cons_of_neg hc
  rw [mark?, htrim]
  exact if_pos rfl

theorem year?_digits {ds : List Char} (hds : ∀ c ∈ ds, c.isDigit) (hne : ds ≠ [])
    (hlength : ds.length = 4) (rest : List Char) :
    year? (ds ++ rest) = some ((value ds : Int), rest) := by
  have hnumber : number? _ (ds ++ rest) = _ :=
    number?_digits hds hne hlength.le (Or.inl hlength)
  rw [year?, trimStart_digits hds hne]
  obtain ⟨c, ds, rfl⟩ := List.exists_cons_of_ne_nil hne
  have hc := hds c List.mem_cons_self
  rw [List.cons_append] at hnumber ⊢
  split
  · rename_i h
    obtain ⟨rfl, -⟩ := List.cons.inj h
    exact absurd hc (by decide)
  · rename_i h
    obtain ⟨rfl, -⟩ := List.cons.inj h
    exact absurd hc (by decide)
  · rw [hnumber]
    rfl

theorem year?_signed {ds : List Char} (hds : ∀ c ∈ ds, c.isDigit) (hne : ds ≠ [])
    {rest : List Char} (hrest : ∀ c ∈ rest.head?, ¬c.isDigit) :
    year? ('-' :: (ds ++ rest)) = some (-(value ds : Int), rest) ∧
      year? ('+' :: (ds ++ rest)) = some ((value ds : Int), rest) := by
  have hlength : ds.length ≤ (ds ++ rest).length := by
    rw [List.length_append]
    exact Nat.le_add_right _ _
  have hnumber := number?_digits hds hne hlength (Or.inr hrest)
  have hminus : Text.trimStart ('-' :: (ds ++ rest)) = '-' :: (ds ++ rest) :=
    List.dropWhile_cons_of_neg (by decide)
  have hplus : Text.trimStart ('+' :: (ds ++ rest)) = '+' :: (ds ++ rest) :=
    List.dropWhile_cons_of_neg (by decide)
  constructor
  · rw [year?, hminus]
    change (number? (ds ++ rest).length (ds ++ rest) >>= _) = _
    rw [hnumber]
    rfl
  · rw [year?, hplus]
    change (number? (ds ++ rest).length (ds ++ rest) >>= _) = _
    rw [hnumber]
    rfl

/-- A year is read from four digits, or from a sign and any number of digits. -/
theorem year?_year (y : Int) {rest : List Char} (hrest : ∀ c ∈ rest.head?, ¬c.isDigit) :
    year? (year y ++ rest) = some (y, rest) := by
  have hds : ∀ n, ∀ c ∈ padded 4 n, c.isDigit := fun n c => isDigit_of_mem_padded
  rw [year]
  by_cases hfour : 0 ≤ y ∧ y ≤ 9999
  · have hlength : (padded 4 y.toNat).length = 4 := length_padded (by decide) (by omega)
    rw [if_pos hfour, year?_digits (hds _) (padded_ne_nil 4 _) hlength, value_padded,
      Int.toNat_of_nonneg hfour.1]
  · obtain ⟨hminus, hplus⟩ := year?_signed (hds y.natAbs) (padded_ne_nil 4 _) hrest
    rw [value_padded] at hminus hplus
    rw [if_neg hfour, List.cons_append]
    by_cases hnegative : y < 0
    · rw [if_pos hnegative, hminus, show -(y.natAbs : Int) = y by omega]
    · rw [if_neg hnegative, hplus, show (y.natAbs : Int) = y by omega]

theorem fraction?_padded {width n : Nat} (hwidth : 0 < width) (hle : width ≤ 9)
    (hn : n < 10 ^ width) {rest : List Char} (hrest : ∀ c ∈ rest.head?, ¬c.isDigit) :
    fraction? ('.' :: (padded width n ++ rest)) = some (n * 10 ^ (9 - width), rest) := by
  have hds : ∀ c ∈ padded width n, c.isDigit := fun c => isDigit_of_mem_padded
  have hlength := length_padded hwidth hn
  have hdrop : rest.dropWhile Char.isDigit = rest := by
    cases rest with
    | nil => rfl
    | cons c rest => exact List.dropWhile_cons_of_neg (hrest c rfl)
  have hnumber := number?_digits hds (padded_ne_nil width n) (hlength.trans_le hle) (Or.inr hrest)
  rw [fraction?]
  simp only [hnumber, Option.bind_eq_bind, Option.bind_some, value_padded, List.length_append,
    hlength, Nat.add_sub_cancel, hdrop]
  rfl

/-- The fraction of a second is read back whatever its number of groups. -/
theorem fraction?_fraction {n : Nat} (hn : n < 1000000000) {c : Char} (hc : ¬c.isDigit)
    (hpoint : c ≠ '.') (rest : List Char) :
    fraction? (fraction n ++ c :: rest) = some (n, c :: rest) := by
  have hrest : ∀ d ∈ (c :: rest).head?, ¬d.isDigit := by
    rintro d ⟨⟩
    exact hc
  rw [fraction]
  by_cases hzero : n = 0
  · rw [if_pos hzero, List.nil_append, fraction?, hzero]
    intro rest' h
    exact hpoint (List.cons.inj h).1
  rw [if_neg hzero]
  by_cases hthree : n % 1000000 = 0
  · rw [if_pos hthree, List.cons_append,
      fraction?_padded (by decide) (by decide) (by omega) hrest]
    congr 2
    omega
  rw [if_neg hthree]
  by_cases hsix : n % 1000 = 0
  · rw [if_pos hsix, List.cons_append,
      fraction?_padded (by decide) (by decide) (by omega) hrest]
    congr 2
    omega
  · rw [if_neg hsix, List.cons_append,
      fraction?_padded (by decide) (by decide) (by omega) hrest, Nat.sub_self, Nat.pow_zero,
      Nat.mul_one]

/-! ### Instants -/

theorem bind_eq_some_of {α β : Type} {x : Option α} {a : α} {f : α → Option β} {b : Option β}
    (h : x = some a) (hf : f a = b) : x >>= f = b := by
  rw [h]
  exact hf

theorem of?_parts (t : Instant) : Instant.of? t.seconds t.nanos = some t :=
  dif_pos ⟨t.first_le, t.le_last, t.nanos_lt⟩

/-- The second 60 of a minute is read as a leap second of the second before it. -/
def takenUp (second nanos : Nat) : Nat × Nat :=
  if second = 60 then (59, nanos + 1000000000) else (second, nanos)

theorem of?_written {t : Instant} (h : t.OnClock) :
    Instant.of?
      (t.seconds / 86400 * 86400 + ((t.seconds % 86400).toNat / 3600 * 3600 +
        (t.seconds % 86400).toNat / 60 % 60 * 60 +
        (takenUp ((t.seconds % 86400).toNat % 60 + t.nanos / 1000000000)
          (t.nanos % 1000000000)).1 : Nat) - (0 : Int))
      (takenUp ((t.seconds % 86400).toNat % 60 + t.nanos / 1000000000)
        (t.nanos % 1000000000)).2 = some t := by
  have hnanos := t.nanos_lt
  have hminute : t.seconds % 60 = 59 → (t.seconds % 86400).toNat % 60 = 59 := by omega
  have htaken : takenUp ((t.seconds % 86400).toNat % 60 + t.nanos / 1000000000)
      (t.nanos % 1000000000) = ((t.seconds % 86400).toNat % 60, t.nanos) := by
    rw [takenUp]
    rcases h with hplain | hlast
    · rw [if_neg (by omega), Nat.div_eq_of_lt hplain, Nat.mod_eq_of_lt hplain, Nat.add_zero]
    · have hlast := hminute hlast
      by_cases hleap : t.nanos < 1000000000
      · rw [if_neg (by omega), Nat.div_eq_of_lt hleap, Nat.mod_eq_of_lt hleap, Nat.add_zero]
      · rw [if_pos (by omega), hlast]
        congr 1
        omega
  rw [htaken, ← of?_parts t]
  congr 1
  omega

/-- Every instant is read back from its text. -/
theorem read?_writeShort {t : Instant} (h : t.OnClock) : read? (writeShort t) = some t := by
  have hvalid := Date.isValid_ofDays (t.seconds / 86400)
  have hdays := Date.toDays_ofDays (t.seconds / 86400)
  have hlow := t.first_le
  have hhigh := t.le_last
  have hyear := Date.year_ofDays (n := t.seconds / 86400) (by omega) (by omega)
  have hend : ∀ rest : List Char, ∀ c ∈ ('-' :: rest).head?, ¬c.isDigit := by
    rintro rest c ⟨⟩
    decide
  have hnanos := t.nanos_lt
  rw [writeShort, dateTime]
  generalize Date.ofDays (t.seconds / 86400) = date at hvalid hdays hyear ⊢
  obtain ⟨y, month, day⟩ := date
  have hdate := hvalid
  simp only [Date.isValid, Bool.and_eq_true, decide_eq_true_eq] at hdate
  obtain ⟨⟨⟨hm, hm'⟩, hd⟩, hd'⟩ := hdate
  have hdays31 : Date.daysIn y month ≤ 31 := by
    unfold Date.daysIn
    split <;> try split
    all_goals decide
  dsimp only at hyear ⊢
  rw [read?, String.toList_ofList]
  simp only [List.append_assoc, List.cons_append]
  refine bind_eq_some_of (year?_year y (hend _)) ?_
  refine bind_eq_some_of (mark?_cons (by decide) _) ?_
  refine bind_eq_some_of (field?_padded hm hm' (by omega) _) ?_
  refine bind_eq_some_of (mark?_cons (by decide) _) ?_
  refine bind_eq_some_of (field?_padded hd (by omega) (by omega) _) ?_
  refine (if_pos (Or.inl rfl)).trans ?_
  refine bind_eq_some_of rfl ?_
  refine bind_eq_some_of (field?_padded (by omega) (by omega) (by omega) _) ?_
  refine bind_eq_some_of (mark?_cons (by decide) _) ?_
  refine bind_eq_some_of (field?_padded (by omega) (by omega) (by omega) _) ?_
  refine bind_eq_some_of (mark?_cons (by decide) _) ?_
  refine bind_eq_some_of (field?_padded (by omega) (by omega) (by omega) _) ?_
  refine bind_eq_some_of (fraction?_fraction (by omega) (by decide) (by decide) _) ?_
  refine bind_eq_some_of (rfl : offset? (Text.trimStart ['Z']) = some (0, [])) ?_
  have hisYear : isYear y := by
    simp only [isYear, Bool.and_eq_true, decide_eq_true_eq]
    exact hyear
  refine (if_pos ⟨rfl, hisYear, hvalid, by decide⟩).trans ?_
  rw [hdays]
  exact of?_written h

/-! ### What reading tells -/

theorem value_lt {ds : List Char} (hds : ∀ c ∈ ds, c.isDigit) : value ds < 10 ^ ds.length := by
  induction ds using List.reverseRecOn with
  | nil => decide
  | append_singleton ds c ih =>
      have hc := Json.toNat_of_isDigit (hds c (by simp))
      have hlt := ih fun d hd => hds d (by simp [hd])
      rw [value, List.foldl_append, List.length_append, List.length_singleton, Nat.pow_succ]
      change value ds * 10 + (c.toNat - 48) < 10 ^ ds.length * 10
      omega

/-- A number has as many digits as are passed over. -/
theorem number?_eq_some {width n : Nat} {cs rest : List Char}
    (h : number? width cs = some (n, rest)) :
    ∃ digits, n < 10 ^ digits ∧ digits ≤ width ∧ cs.length - rest.length = digits := by
  rw [number?] at h
  split_ifs at h with hempty
  cases h
  have hprefix := List.takeWhile_prefix Char.isDigit (l := cs.take width)
  have hlength := hprefix.length_le
  rw [List.length_take] at hlength
  refine ⟨_, value_lt (List.all_eq_true.mp List.all_takeWhile), by omega, ?_⟩
  rw [List.length_drop]
  omega

theorem fraction?_lt {cs rest : List Char} {n : Nat} (h : fraction? cs = some (n, rest)) :
    n < 1000000000 := by
  unfold fraction? at h
  split at h
  · obtain ⟨⟨value, behind⟩, hnumber, h⟩ := Option.bind_eq_some_iff.mp h
    cases h
    obtain ⟨digits, hvalue, hwidth, hcount⟩ := number?_eq_some hnumber
    rw [hcount]
    calc value * 10 ^ (9 - digits) < 10 ^ digits * 10 ^ (9 - digits) :=
          Nat.mul_lt_mul_of_pos_right hvalue (Nat.pow_pos (by decide))
      _ = 1000000000 := by
          rw [← Nat.pow_add, Nat.add_sub_cancel' hwidth]
  · cases h
    exact Nat.zero_lt_succ _

theorem hoursMinutes?_mod {cs rest : List Char} {n : Nat}
    (h : hoursMinutes? cs = some (n, rest)) : n % 60 = 0 := by
  obtain ⟨⟨hours, behind⟩, -, h⟩ := Option.bind_eq_some_iff.mp h
  obtain ⟨⟨minutes, behind'⟩, -, h⟩ := Option.bind_eq_some_iff.mp h
  cases h
  omega

/-- Places are whole minutes apart. -/
theorem offset?_mod {cs rest : List Char} {n : Int} (h : offset? cs = some (n, rest)) :
    n % 60 = 0 := by
  unfold offset? at h
  split at h
  · cases h; rfl
  · cases h; rfl
  · obtain ⟨⟨n', behind⟩, hn, h⟩ := Option.bind_eq_some_iff.mp h
    cases h
    have := hoursMinutes?_mod hn
    omega
  · obtain ⟨⟨n', behind⟩, hn, h⟩ := Option.bind_eq_some_iff.mp h
    cases h
    have := hoursMinutes?_mod hn
    omega
  · obtain ⟨⟨n', behind⟩, hn, h⟩ := Option.bind_eq_some_iff.mp h
    cases h
    have := hoursMinutes?_mod hn
    omega
  · split_ifs at h
    cases h
    rfl
  · cases h

theorem onClock_of_of? {seconds : Int} (hminute : seconds % 60 = 0) (second : Nat) {nanos : Nat}
    (hnanos : nanos < 1000000000) {t : Instant}
    (h : Instant.of? (seconds + (takenUp second nanos).1) (takenUp second nanos).2 = some t) :
    t.OnClock := by
  unfold Instant.of? takenUp at h
  split_ifs at h
  · cases h
    exact Or.inr (by simp only; omega)
  · cases h
    exact Or.inl hnanos

/-- An instant that is read can only be a leap second at the end of a minute. -/
theorem onClock_of_read? {s : String} {t : Instant} (h : read? s = some t) : t.OnClock := by
  obtain ⟨⟨year, cs⟩, -, h⟩ := Option.bind_eq_some_iff.mp h
  obtain ⟨cs, -, h⟩ := Option.bind_eq_some_iff.mp h
  obtain ⟨⟨month, cs⟩, -, h⟩ := Option.bind_eq_some_iff.mp h
  obtain ⟨cs, -, h⟩ := Option.bind_eq_some_iff.mp h
  obtain ⟨⟨day, cs⟩, -, h⟩ := Option.bind_eq_some_iff.mp h
  dsimp only at h
  -- The letter between date and time.
  split at h
  swap
  · cases h
  split_ifs at h
  swap
  · cases h
  obtain ⟨cs, -, h⟩ := Option.bind_eq_some_iff.mp h
  obtain ⟨⟨hour, cs⟩, -, h⟩ := Option.bind_eq_some_iff.mp h
  obtain ⟨cs, -, h⟩ := Option.bind_eq_some_iff.mp h
  obtain ⟨⟨minute, cs⟩, -, h⟩ := Option.bind_eq_some_iff.mp h
  obtain ⟨cs, -, h⟩ := Option.bind_eq_some_iff.mp h
  obtain ⟨⟨second, cs⟩, -, h⟩ := Option.bind_eq_some_iff.mp h
  obtain ⟨⟨nanos, cs⟩, hnanos, h⟩ := Option.bind_eq_some_iff.mp h
  obtain ⟨⟨offset, cs⟩, hoffset, h⟩ := Option.bind_eq_some_iff.mp h
  dsimp only at h
  obtain ⟨-, h⟩ := Option.ite_none_right_eq_some.mp h
  have hplace := offset?_mod hoffset
  have hminute : ((⟨year, month, day⟩ : Date).toDays * 86400 +
      (hour * 3600 + minute * 60 : Nat) - offset) % 60 = 0 := by omega
  refine onClock_of_of? hminute second (fraction?_lt hnanos) ?_
  rw [← h, takenUp]
  split_ifs
  · congr 1
    omega
  · congr 1
    omega

end Rfc3339

end TokenAuthority

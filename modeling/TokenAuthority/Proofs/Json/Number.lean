import TokenAuthority.Json.Value
import TokenAuthority.Json.Written
import TokenAuthority.Proofs.Text.Utf8
import Mathlib.Data.Nat.Digits.Lemmas

/-!
# Reading back whole numbers

A whole number is written in decimal digits, with no zero in front and a minus sign if it
is negative. It is read back if it fits 64 binary digits with a sign and what stands
behind it does not go on with the number.
-/

namespace TokenAuthority.Json

/-! ### Digits -/

/-- The digits of a number, as octets. -/
def digits (n : Nat) : Bytes := (Nat.toDigits 10 n).map fun c => UInt8.ofNat c.toNat

theorem toNat_of_isDigit {c : Char} (h : c.isDigit) : 48 ≤ c.toNat ∧ c.toNat ≤ 57 := by
  simp only [Char.isDigit, Bool.and_eq_true, decide_eq_true_eq] at h
  exact ⟨UInt32.le_iff_toNat_le.mp h.1, UInt32.le_iff_toNat_le.mp h.2⟩

theorem digit_octet {c : Char} (h : c.isDigit) :
    isDigit (UInt8.ofNat c.toNat) ∧ digitValue (UInt8.ofNat c.toNat) = c.toNat - '0'.toNat := by
  obtain ⟨hlow, hhigh⟩ := toNat_of_isDigit h
  have hc : (UInt8.ofNat c.toNat).toNat = c.toNat := by
    rw [UInt8.toNat_ofNat']
    omega
  simp only [isDigit, digitValue, Bool.and_eq_true, decide_eq_true_eq, UInt8.le_iff_toNat_le, hc]
  exact ⟨⟨hlow, hhigh⟩, rfl⟩

theorem isDigit_of_mem_digits {n : Nat} {b : UInt8} (hb : b ∈ digits n) : isDigit b := by
  obtain ⟨c, hc, rfl⟩ := List.mem_map.mp hb
  exact (digit_octet (Nat.isDigit_of_mem_toDigits (by decide) (by decide) hc)).1

theorem le_ofDigitChars (cs : List Char) (n : Nat) : n ≤ Nat.ofDigitChars 10 cs n := by
  rw [Nat.ofDigitChars_eq_ofDigitChars_zero]
  have hpos : 0 < 10 ^ cs.length := Nat.pow_pos (by decide)
  calc n ≤ 10 ^ cs.length * n := Nat.le_mul_of_pos_left n hpos
    _ ≤ _ := Nat.le_add_right _ _

/-- Digits are taken in down to the last if the number they make is below the limit. -/
theorem takeIn_map {limit : Nat} {cs : List Char} (hcs : ∀ c ∈ cs, c.isDigit) {n : Nat}
    (hlt : Nat.ofDigitChars 10 cs n < limit) :
    takeIn limit n (cs.map fun c => UInt8.ofNat c.toNat) = (Nat.ofDigitChars 10 cs n, []) := by
  induction cs generalizing n with
  | nil => rfl
  | cons c cs ih =>
      have hc := (digit_octet (hcs c List.mem_cons_self)).2
      rw [Nat.ofDigitChars_cons] at hlt ⊢
      have hle := le_ofDigitChars cs (10 * n + (c.toNat - '0'.toNat))
      rw [List.map_cons, takeIn, hc, Nat.mul_comm n 10, if_pos (by omega)]
      exact ih (fun d hd => hcs d (List.mem_cons_of_mem c hd)) hlt

theorem takeIn_digits {limit n : Nat} (hn : n < limit) :
    takeIn limit 0 (digits n) = (n, []) := by
  have hvalue : Nat.ofDigitChars 10 (Nat.toDigits 10 n) 0 = n := Nat.ofDigitChars_ten_toDigits
  rw [digits, takeIn_map (fun c => Nat.isDigit_of_mem_toDigits (by decide) (by decide))
    (by rwa [hvalue]), hvalue]

/-- Only zero is written with a zero in front. -/
theorem exists_digits_of_pos {n : Nat} (hn : 0 < n) :
    ∃ b rest, digits n = b :: rest ∧ b ≠ 0x30 := by
  induction n using Nat.strong_induction_on with
  | _ n ih =>
      by_cases hlt : n < 10
      · refine ⟨_, [], by rw [digits, Nat.toDigits_of_lt_base hlt, List.map_singleton], ?_⟩
        rw [Nat.toNat_digitChar_of_lt_ten hlt, ne_eq, ← UInt8.toNat_inj, UInt8.toNat_ofNat']
        change ¬(48 + n) % 2 ^ 8 = 48
        omega
      · -- The last digit stands behind those of the tenth part, so the first is one of them.
        obtain ⟨b, rest, hb, hne⟩ := ih (n / 10) (by omega) (by omega)
        rw [digits] at hb
        refine ⟨b, rest ++ [UInt8.ofNat (n % 10).digitChar.toNat], ?_, hne⟩
        rw [digits, Nat.toDigits_of_base_le (by decide) (by omega), List.map_append, hb]
        rfl

/-! ### Whole numbers -/

/-- Octets before which a whole number ends: neither a digit nor a point nor the letter of
an exponent stands in front. -/
def EndsWhole (bs : Bytes) : Prop :=
  ∀ b ∈ bs.head?, ¬isDigit b ∧ b ≠ 0x2E ∧ b ≠ 0x65 ∧ b ≠ 0x45

theorem behindWhole_of_ends (negative : Bool) (n : Nat) {rest : Bytes} (h : EndsWhole rest) :
    behindWhole negative n rest = .ok (whole negative n, rest) := by
  cases rest with
  | nil => rfl
  | cons b rest =>
      obtain ⟨-, hpoint, he, hE⟩ := h b rfl
      rw [behindWhole, if_neg hpoint, if_neg (by simp [he, hE])]

theorem takeWhile_digits (n : Nat) {rest : Bytes} (h : EndsWhole rest) :
    (digits n ++ rest).takeWhile isDigit = digits n ∧
      (digits n ++ rest).dropWhile isDigit = rest := by
  have hdigits : ∀ b ∈ digits n, isDigit b := fun b => isDigit_of_mem_digits
  rw [List.takeWhile_append_of_pos hdigits, List.dropWhile_append_of_pos hdigits]
  cases rest with
  | nil => simp
  | cons b rest =>
      have hb := (h b rfl).1
      rw [List.takeWhile_cons_of_neg hb, List.dropWhile_cons_of_neg hb, List.append_nil]
      exact ⟨rfl, rfl⟩

/-- A number that fits 64 binary digits is read from its digits. -/
theorem number_digits (negative : Bool) {n : Nat} (hn : n < wordLimit) {rest : Bytes}
    (h : EndsWhole rest) :
    number negative (digits n ++ rest) = .ok (whole negative n, rest) := by
  obtain rfl | hpos := Nat.eq_zero_or_pos n
  · have hzero : digits 0 = [0x30] := rfl
    have hhead : ¬(rest.head?.map isDigit).getD false := by
      cases rest with
      | nil => simp
      | cons b rest => simpa using (h b rfl).1
    rw [hzero, List.singleton_append, number, if_pos rfl, if_neg hhead]
    exact behindWhole_of_ends negative 0 h
  · obtain ⟨b, others, hb, hne⟩ := exists_digits_of_pos hpos
    have hdigit : isDigit b := isDigit_of_mem_digits (n := n) (by rw [hb]; exact List.mem_cons_self)
    obtain ⟨htake, hdrop⟩ := takeWhile_digits n h
    have hin := takeIn_digits hn
    rw [hb, List.cons_append] at htake hdrop ⊢
    rw [hb] at hin
    rw [number, if_neg hne, if_pos hdigit, htake, hdrop, hin]
    exact behindWhole_of_ends negative n h

theorem octets_writtenInteger (n : Int) :
    (writtenInteger n).flatMap String.utf8EncodeChar =
      if 0 ≤ n then digits n.toNat else 0x2D :: digits (-n).toNat := by
  have hascii : ∀ m : Nat, ∀ c ∈ Nat.toDigits 10 m, c.toNat < 0x80 := by
    intro m c hc
    have := toNat_of_isDigit (Nat.isDigit_of_mem_toDigits (by decide) (by decide) hc)
    omega
  rw [writtenInteger, Int.toString_eq_repr, Int.repr_eq_if]
  split
  · rw [Nat.toList_repr, Utf8.flatMap_ascii (hascii _)]
    rfl
  · rw [String.toList_append, Nat.toList_repr, List.flatMap_append, Utf8.flatMap_ascii (hascii _)]
    rfl

theorem skipSpace_of_not_space {b : UInt8} (h : ¬isSpace b) (bs : Bytes) :
    skipSpace (b :: bs) = b :: bs :=
  List.dropWhile_cons_of_neg h

theorem exists_digits (n : Nat) : ∃ b rest, digits n = b :: rest ∧ isDigit b := by
  have hne : digits n ≠ [] := by
    rw [digits, ne_eq, List.map_eq_nil_iff]
    exact Nat.toDigits_ne_nil
  obtain ⟨b, rest, hb⟩ := List.exists_cons_of_ne_nil hne
  exact ⟨b, rest, hb, isDigit_of_mem_digits (n := n) (by rw [hb]; exact List.mem_cons_self)⟩

theorem isDigit_iff (b : UInt8) : isDigit b ↔ 0x30 ≤ b.toNat ∧ b.toNat ≤ 0x39 := by
  simp [isDigit, UInt8.le_iff_toNat_le]

theorem isSpace_iff (b : UInt8) :
    isSpace b ↔ b.toNat = 0x20 ∨ b.toNat = 0x0A ∨ b.toNat = 0x09 ∨ b.toNat = 0x0D := by
  simp [isSpace, ← UInt8.toNat_inj, or_assoc]

/-- Every whole number of 64 binary digits with a sign is read from its written form. -/
theorem integer_written {n : Int} (hlow : -2 ^ 63 ≤ n) (hhigh : n < 2 ^ 63) {rest : Bytes}
    (h : EndsWhole rest) :
    integer ((writtenInteger n).flatMap String.utf8EncodeChar ++ rest) = .ok (n, rest) := by
  rw [octets_writtenInteger]
  by_cases hn : 0 ≤ n
  · obtain ⟨b, others, hb, hdigit⟩ := exists_digits n.toNat
    have hnumber := number_digits false (n := n.toNat) (by rw [wordLimit]; omega) h
    have hspace : ¬isSpace b := by
      rw [isDigit_iff] at hdigit
      rw [isSpace_iff]
      omega
    have hminus : b ≠ 0x2D := by
      rintro rfl
      exact absurd hdigit (by decide)
    rw [if_pos hn]
    rw [hb, List.cons_append] at hnumber ⊢
    rw [integer, skipSpace_of_not_space hspace]
    dsimp only
    rw [if_neg hminus, if_pos hdigit, hnumber]
    simp only [bind, Except.bind, whole, Number.toInt?, if_neg Bool.false_ne_true]
    rw [if_pos (by omega)]
    simp only [pure, Except.pure, Int.toNat_of_nonneg hn]
  · have hnumber := number_digits true (n := (-n).toNat) (by rw [wordLimit]; omega) h
    have hspace : ¬isSpace 0x2D := by decide
    rw [if_neg hn, List.cons_append, integer, skipSpace_of_not_space hspace]
    dsimp only
    rw [if_pos rfl, hnumber, whole, if_pos rfl, if_pos (by omega)]
    simp only [bind, Except.bind, Number.toInt?, pure, Except.pure]
    rw [show -((-n).toNat : Int) = n by omega]

end TokenAuthority.Json

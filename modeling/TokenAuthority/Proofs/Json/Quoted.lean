import TokenAuthority.Json.Quoted
import TokenAuthority.Proofs.Text.Utf8
import Mathlib.Tactic.Common

/-!
# Reading back quoted texts

A character is written as itself or as an escape. The octets of the first kind are
plain, and an escape stands for one character, so the octets between the quotes are read
character by character.
-/

namespace TokenAuthority.Json

/-! ### Stretches of plain octets, and escapes -/

theorem untilQuote_plain (esc : Bytes → Except Error (Bytes × Nat)) (fuel : Nat)
    {plain : Bytes} (hplain : ∀ b ∈ plain, isPlain b) (bs : Bytes) :
    untilQuote esc (fuel + 1) (plain ++ bs) =
      (untilQuote esc (fuel + 1) bs).map fun (octets, rest) => (plain ++ octets, rest) := by
  rw [untilQuote, untilQuote, List.dropWhile_append_of_pos hplain,
    List.takeWhile_append_of_pos hplain]
  cases bs.dropWhile isPlain with
  | nil => rfl
  | cons b rest =>
      dsimp only
      split_ifs
      · rfl
      · cases esc rest with
        | error e => rfl
        | ok found =>
            simp only [bind, Except.bind, pure, Except.pure, List.append_assoc]
            cases untilQuote esc fuel (rest.drop found.2) <;> rfl
      · rfl

theorem untilQuote_escape {esc : Bytes → Except Error (Bytes × Nat)} (fuel : Nat)
    {form octets : Bytes} (bs : Bytes)
    (hform : esc (form ++ bs) = .ok (octets, form.length)) :
    untilQuote esc (fuel + 1) (backslash :: (form ++ bs)) =
      (untilQuote esc fuel bs).map fun (others, rest) => (octets ++ others, rest) := by
  have hplain : isPlain backslash = false := by decide
  have hquote : ¬backslash = quote := by decide
  rw [untilQuote, List.dropWhile_cons_of_neg (by simp [hplain]),
    List.takeWhile_cons_of_neg (by simp [hplain])]
  dsimp only
  rw [if_neg hquote, if_pos rfl, hform]
  simp only [bind, Except.bind, pure, Except.pure, List.drop_left, List.nil_append]
  cases untilQuote esc fuel bs <;> rfl

theorem untilQuote_quote (esc : Bytes → Except Error (Bytes × Nat)) (fuel : Nat)
    (rest : Bytes) : untilQuote esc (fuel + 1) (quote :: rest) = .ok ([], rest) := by
  have hplain : isPlain quote = false := by decide
  rw [untilQuote, List.dropWhile_cons_of_neg (by simp [hplain]),
    List.takeWhile_cons_of_neg (by simp [hplain])]
  rfl

/-! ### Plain octets -/

theorem isPlain_iff (b : UInt8) :
    isPlain b ↔ 0x20 ≤ b.toNat ∧ b.toNat ≠ 0x22 ∧ b.toNat ≠ 0x5C := by
  simp [isPlain, quote, backslash, UInt8.le_iff_toNat_le, ← UInt8.toNat_inj, and_assoc]

theorem isPlain_encodeChar {c : Char} (hlow : 0x20 ≤ c.toNat) (hquote : c ≠ '"')
    (hback : c ≠ '\\') : ∀ b ∈ String.utf8EncodeChar c, isPlain b := by
  intro b hb
  rw [isPlain_iff]
  by_cases hc : c.toNat < 0x80
  · have hb' : b.toNat = c.toNat := by
      rw [Utf8.encodeChar_ascii hc, List.mem_singleton] at hb
      rw [hb, UInt8.toNat_ofNat']
      omega
    rw [hb']
    exact ⟨hlow, fun h => hquote (Char.toNat_inj.mp h), fun h => hback (Char.toNat_inj.mp h)⟩
  · have hle := Utf8.le_of_mem_encodeChar (Nat.le_of_not_lt hc) hb
    rw [UInt8.le_iff_toNat_le] at hle
    change 0x80 ≤ b.toNat at hle
    omega

/-! ### The written form of a character -/

theorem hexValue_digit : ∀ n < 16,
    (Hex.digit n).toNat < 0x80 ∧ hexValue (UInt8.ofNat (Hex.digit n).toNat) = .ok n := by
  decide

/-! ### Texts -/

/-- The octets of a quoted text: a quote, what `textBody` reads, and a quote. -/
theorem octets_quoted (s : String) :
    (quoted s).flatMap String.utf8EncodeChar =
      quote :: ((s.toList.flatMap quotedChar).flatMap String.utf8EncodeChar ++ [quote]) := by
  rw [quoted, List.flatMap_cons, List.flatMap_append]
  rfl

end TokenAuthority.Json

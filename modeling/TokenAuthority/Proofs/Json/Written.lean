import TokenAuthority.Json.Written
import TokenAuthority.Proofs.Json.Grammar

/-!
# What is written is in the notation

Texts, whole numbers and objects are written in forms of the notation, so that what is known of
all forms is known of the written ones.
-/

namespace TokenAuthority.Json

/-! ### Texts -/

/-- The number of a control character is written with two zeros in front. -/
theorem isHex_of_lt {n : Nat} (h : n < 0x20) :
    IsHex n [0x30, 0x30, UInt8.ofNat (Hex.digit (n / 16)).toNat,
      UInt8.ofNat (Hex.digit (n % 16)).toNat] := by
  have hzero : IsHexDigit 0 0x30 := ⟨by decide, .inl rfl⟩
  have hhigh : IsHexDigit (n / 16) (UInt8.ofNat (Hex.digit (n / 16)).toNat) :=
    ⟨by omega, .inl rfl⟩
  have hlow : IsHexDigit (n % 16) (UInt8.ofNat (Hex.digit (n % 16)).toNat) :=
    ⟨Nat.mod_lt n (by decide), .inl rfl⟩
  have hhex := IsHex.four hzero hzero hhigh hlow
  have hn : 0 * 4096 + 0 * 256 + n / 16 * 16 + n % 16 = n := by omega
  rwa [hn] at hhex

/-- A character is spelled as it is written. -/
theorem Spells.quotedChar (c : Char) {cs : List Char} {bs : Bytes} (behind : Spells cs bs) :
    Spells (c :: cs) ((quotedChar c).flatMap String.utf8EncodeChar ++ bs) := by
  have hshort : ∀ b d, (b, d) ∈ shortEscapes → Spells (d :: cs) (backslash :: ([b] ++ bs)) :=
    fun b d listed => .escaped (.short listed) behind
  unfold Json.quotedChar
  split_ifs with h1 h2 h3 h4 h5 h6 h7 h8
  · subst h1
    exact hshort 0x22 '"' (by decide)
  · subst h2
    exact hshort 0x5C '\\' (by decide)
  · subst h3
    exact hshort 0x62 '\x08' (by decide)
  · subst h4
    exact hshort 0x74 '\t' (by decide)
  · subst h5
    exact hshort 0x6E '\n' (by decide)
  · subst h6
    exact hshort 0x66 '\x0c' (by decide)
  · subst h7
    exact hshort 0x72 '\r' (by decide)
  · have hhigh := (hexValue_digit (c.toNat / 16) (by omega)).1
    have hlow := (hexValue_digit (c.toNat % 16) (by omega)).1
    have hspelled := Spells.escaped (.code (isHex_of_lt h8)) behind
    simp only [List.flatMap_cons, List.flatMap_nil, Utf8.encodeChar_ascii hhigh,
      Utf8.encodeChar_ascii hlow]
    exact hspelled
  · rw [List.flatMap_singleton]
    exact .plain (by omega) h1 h2 behind

/-- A text is spelled as it is written. -/
theorem isText_quoted (s : String) : IsText s ((quoted s).flatMap String.utf8EncodeChar) := by
  have hspells : ∀ cs : List Char,
      Spells cs ((cs.flatMap quotedChar).flatMap String.utf8EncodeChar) := by
    intro cs
    induction cs with
    | nil => exact .nil
    | cons c cs ih =>
        rw [List.flatMap_cons, List.flatMap_append]
        exact .quotedChar c ih
  rw [octets_quoted]
  exact .mk (hspells s.toList)
/-! ### Whole numbers -/

theorem decimal_digits (n : Nat) : decimal (digits n) = n := by
  have hdigit : ∀ d < 10, digitValue (UInt8.ofNat (Nat.digitChar d).toNat) = d := by decide
  induction n using Nat.strong_induction_on with
  | _ n ih =>
      by_cases hlt : n < 10
      · rw [digits_of_lt hlt, decimal, List.foldl_cons, List.foldl_nil, hdigit n hlt]
        omega
      · have hn : n / 10 * 10 + n % 10 = n := by omega
        have hmod := Nat.mod_lt n (show 0 < 10 by decide)
        rw [← hn, digits_append (by omega) hmod, decimal_append_singleton, ih _ (by omega),
          hdigit _ hmod]

theorem isWhole_digits (n : Nat) : IsWhole (digits n) := by
  obtain ⟨b, rest, hb, -⟩ := exists_digits n
  refine ⟨⟨by simp [hb], fun _ => isDigit_of_mem_digits⟩, fun hzero => ?_⟩
  obtain rfl | hpos := Nat.eq_zero_or_pos n
  · rfl
  · obtain ⟨c, others, hc, hne⟩ := exists_digits_of_pos hpos
    rw [hc, List.head?_cons, Option.some.injEq] at hzero
    exact absurd hzero hne

/-- A whole number is written in its form. -/
theorem isInteger_written (n : Int) :
    IsInteger n ((writtenInteger n).flatMap String.utf8EncodeChar) := by
  rw [octets_writtenInteger]
  split_ifs with hn
  · have h := IsInteger.natural (isWhole_digits n.toNat)
    rwa [decimal_digits, Int.toNat_of_nonneg hn] at h
  · have h := IsInteger.negative (isWhole_digits (-n).toNat) (by rw [decimal_digits]; omega)
    have hvalue : -((-n).toNat : Int) = n := by omega
    rwa [decimal_digits, hvalue] at h

theorem IsWhole.isUnsigned {ds : Bytes} (h : IsWhole ds) : IsUnsigned ds := by
  have hunsigned := IsUnsigned.mk h .none .none
  rwa [List.append_nil, List.append_nil] at hunsigned

theorem IsInteger.isNumber {n : Int} {bs : Bytes} (h : IsInteger n bs) : IsNumber bs := by
  cases h with
  | natural whole => exact .positive whole.isUnsigned
  | negative whole _ => exact .negative whole.isUnsigned

/-! ### Objects -/

/-- A member with the octets of its value. -/
def octets (member : String × List Char) : String × Bytes :=
  (member.1, member.2.flatMap String.utf8EncodeChar)

/-- The members of an object are written with commas between them. -/
theorem form_joined {ms : Members} (hne : ms ≠ []) (h : ∀ m ∈ ms, Form .value (octets m).2) :
    Form (.members (ms.map octets))
      ((joined [','] (ms.map fun (name, value) => quoted name ++ ':' :: value)).flatMap
        String.utf8EncodeChar ++ [0x7D]) := by
  have hcolon : String.utf8EncodeChar ':' = [0x3A] := by decide
  have hcomma : String.utf8EncodeChar ',' = [0x2C] := by decide
  induction ms with
  | nil => exact absurd rfl hne
  | cons m ms ih =>
      obtain ⟨name, value⟩ := m
      have hfirst := Form.closeMember (isText_quoted name) (h _ List.mem_cons_self)
      cases ms with
      | nil =>
          rw [List.map_singleton, List.map_singleton, joined, List.intercalate_singleton,
            List.flatMap_append, List.flatMap_cons, hcolon]
          exact .lastMember hfirst
      | cons other others =>
          have hothers := ih (List.cons_ne_nil other others)
            fun m hm => h m (List.mem_cons_of_mem _ hm)
          have hform := Form.moreMembers hfirst hothers
          simp only [joined, List.map_cons, List.intercalate_cons_cons, List.flatMap_append,
            List.flatMap_cons, hcolon, hcomma, List.append_assoc, List.cons_append,
            List.nil_append] at hform ⊢
          exact hform

/-- An object is written in its form. -/
theorem isObject_compact {ms : Members} (hne : ms ≠ []) (h : ∀ m ∈ ms, Form .value (octets m).2) :
    IsObject (ms.map octets) (Utf8.encode (String.ofList (compact ms))) := by
  have hopen : String.utf8EncodeChar '\x7b' = [0x7B] := by decide
  have hclose : String.utf8EncodeChar '\x7d' = [0x7D] := by decide
  have hobject := IsObject.mk isBlank_nil (form_joined hne h) isBlank_nil
  rw [Utf8.encode_ofList, compact, List.cons_append, List.flatMap_cons, List.flatMap_append, hopen,
    List.flatMap_singleton, hclose]
  rwa [List.nil_append, List.append_nil] at hobject

end TokenAuthority.Json

import TokenAuthority.Json.Pass
import TokenAuthority.Json.Value
import TokenAuthority.Proofs.Json.Number
import TokenAuthority.Proofs.Json.Quoted

/-!
# The notation of values

Octets that are a value in this notation, told without a reader: blanks may stand around every
value, every name and every mark, a number may have a fraction and an exponent, and a character
between quotes may stand for itself or be escaped in any way that stands for it. The members of
an object are told by their names, as texts, and by the octets of their values.
-/

namespace TokenAuthority.Json

/-- Blanks, or nothing. -/
def IsBlank (bs : Bytes) : Prop := ∀ b ∈ bs, isSpace b

/-! ### Numbers -/

/-- One digit or more. -/
def IsDigits (ds : Bytes) : Prop := ds ≠ [] ∧ ∀ b ∈ ds, isDigit b

/-- The digits of a whole number, with no zero in front of others. -/
def IsWhole (ds : Bytes) : Prop := IsDigits ds ∧ (ds.head? = some 0x30 → ds = [0x30])

/-- The number that digits stand for. -/
def decimal (ds : Bytes) : Nat := ds.foldl (fun n b => n * 10 + digitValue b) 0

/-- The octets of a whole number with its sign. Zero has none. -/
inductive IsInteger : Int → Bytes → Prop
  | natural {ds : Bytes} (whole : IsWhole ds) : IsInteger (decimal ds) ds
  | negative {ds : Bytes} (whole : IsWhole ds) (pos : 0 < decimal ds) :
    IsInteger (-decimal ds) (0x2D :: ds)

/-- A fraction behind a whole number, or nothing. -/
inductive IsFraction : Bytes → Prop
  | none : IsFraction []
  | some {ds : Bytes} (digits : IsDigits ds) : IsFraction (0x2E :: ds)

/-- An exponent behind a number, or nothing. -/
inductive IsExponent : Bytes → Prop
  | none : IsExponent []
  | some {letter : UInt8} {sign ds : Bytes} (exponent : letter = 0x65 ∨ letter = 0x45)
    (signed : sign = [] ∨ sign = [0x2B] ∨ sign = [0x2D]) (digits : IsDigits ds) :
    IsExponent (letter :: (sign ++ ds))

/-- The octets of a number without its sign. -/
inductive IsUnsigned : Bytes → Prop
  | mk {ds fraction exponent : Bytes} (whole : IsWhole ds) (fractional : IsFraction fraction)
    (exponential : IsExponent exponent) : IsUnsigned (ds ++ (fraction ++ exponent))

/-- The octets of a number. -/
inductive IsNumber : Bytes → Prop
  | positive {bs : Bytes} (unsigned : IsUnsigned bs) : IsNumber bs
  | negative {bs : Bytes} (unsigned : IsUnsigned bs) : IsNumber (0x2D :: bs)

/-! ### Texts -/

/-- A hexadecimal digit of either case. -/
def IsHexDigit (n : Nat) (b : UInt8) : Prop :=
  n < 16 ∧ (b = UInt8.ofNat (Hex.digit n).toNat ∨ b = UInt8.ofNat (Hex.digit n).toUpper.toNat)

/-- Four hexadecimal digits. -/
inductive IsHex : Nat → Bytes → Prop
  | four {a b c d : Nat} {w x y z : UInt8} (first : IsHexDigit a w) (second : IsHexDigit b x)
    (third : IsHexDigit c y) (fourth : IsHexDigit d z) :
    IsHex (a * 4096 + b * 256 + c * 16 + d) [w, x, y, z]

/-- The characters that a single letter behind a backslash stands for. -/
def shortEscapes : List (UInt8 × Char) :=
  [(0x22, '"'), (0x5C, '\\'), (0x2F, '/'), (0x62, '\x08'), (0x66, '\x0c'), (0x6E, '\n'),
    (0x72, '\r'), (0x74, '\t')]

/-- What stands behind the backslash of an escaped character: a letter, the number of the
character, or the numbers of two surrogates. -/
inductive IsEscape : Char → Bytes → Prop
  | short {c : Char} {b : UInt8} (listed : (b, c) ∈ shortEscapes) : IsEscape c [b]
  | code {c : Char} {ds : Bytes} (number : IsHex c.toNat ds) : IsEscape c (0x75 :: ds)
  | surrogates {c : Char} {high low : Nat} {ds ds' : Bytes} (first : IsHex high ds)
    (second : IsHex low ds') (isHigh : 0xD800 ≤ high ∧ high ≤ 0xDBFF)
    (isLow : 0xDC00 ≤ low ∧ low ≤ 0xDFFF)
    (number : c.toNat = (high - 0xD800) * 1024 + (low - 0xDC00) + 0x10000) :
    IsEscape c (0x75 :: (ds ++ backslash :: 0x75 :: ds'))

/-- The octets between quotes that spell characters. -/
inductive Spells : List Char → Bytes → Prop
  | nil : Spells [] []
  | plain {c : Char} {cs : List Char} {bs : Bytes} (low : 0x20 ≤ c.toNat) (quote : c ≠ '"')
    (backslash : c ≠ '\\') (behind : Spells cs bs) :
    Spells (c :: cs) (String.utf8EncodeChar c ++ bs)
  | escaped {c : Char} {cs : List Char} {form bs : Bytes} (escape : IsEscape c form)
    (behind : Spells cs bs) : Spells (c :: cs) (backslash :: (form ++ bs))

/-- The octets of a text with its quotes. -/
inductive IsText (s : String) : Bytes → Prop
  | mk {body : Bytes} (spelled : Spells s.toList body) : IsText s (quote :: (body ++ [quote]))

/-- A text, or `null` where there is none. -/
inductive IsOptionalText : Option String → Bytes → Prop
  | null : IsOptionalText none (0x6E :: nullTail)
  | text {s : String} {bs : Bytes} (spelled : IsText s bs) : IsOptionalText (some s) bs

/-! ### Values -/

/-- The parts of the notation: values, the items of lists and the members of objects, and all
those of a list or an object up to its end. -/
inductive Part where
  | value
  | item
  | items
  | member (name : String) (value : Bytes)
  | members (all : List (String × Bytes))

/-- The octets of a part. -/
inductive Form : Part → Bytes → Prop
  | null : Form .value (0x6E :: nullTail)
  | yes : Form .value (0x74 :: trueTail)
  | no : Form .value (0x66 :: falseTail)
  | number {bs : Bytes} (digits : IsNumber bs) : Form .value bs
  | text {s : String} {bs : Bytes} (spelled : IsText s bs) : Form .value bs
  | emptyList {inside : Bytes} (blank : IsBlank inside) : Form .value (0x5B :: (inside ++ [0x5D]))
  | list {bs : Bytes} (items : Form .items bs) : Form .value (0x5B :: bs)
  | emptyObject {inside : Bytes} (blank : IsBlank inside) :
    Form .value (0x7B :: (inside ++ [0x7D]))
  | object {ms : List (String × Bytes)} {bs : Bytes} (members : Form (.members ms) bs) :
    Form .value (0x7B :: bs)
  | item {before value behind : Bytes} (leading : IsBlank before) (form : Form .value value)
    (trailing : IsBlank behind) : Form .item (before ++ (value ++ behind))
  | lastItem {bs : Bytes} (form : Form .item bs) : Form .items (bs ++ [0x5D])
  | moreItems {bs others : Bytes} (form : Form .item bs) (behind : Form .items others) :
    Form .items (bs ++ 0x2C :: others)
  | member {name : String} {before spelling beside inside value behind : Bytes}
    (leading : IsBlank before) (named : IsText name spelling) (middle : IsBlank beside)
    (inner : IsBlank inside) (form : Form .value value) (trailing : IsBlank behind) :
    Form (.member name value)
      (before ++ (spelling ++ (beside ++ 0x3A :: (inside ++ (value ++ behind)))))
  | lastMember {name : String} {value bs : Bytes} (form : Form (.member name value) bs) :
    Form (.members [(name, value)]) (bs ++ [0x7D])
  | moreMembers {name : String} {value bs others : Bytes} {ms : List (String × Bytes)}
    (form : Form (.member name value) bs) (behind : Form (.members ms) others) :
    Form (.members ((name, value) :: ms)) (bs ++ 0x2C :: others)

/-- The octets of an object with the given members, in their order. -/
inductive IsObject (ms : List (String × Bytes)) : Bytes → Prop
  | mk {before inside behind : Bytes} (leading : IsBlank before) (form : Form (.members ms) inside)
    (trailing : IsBlank behind) : IsObject ms (before ++ 0x7B :: (inside ++ behind))

/-- Exactly one member has the name, and its value is such. -/
def Tells (ms : List (String × Bytes)) (name : String) (P : Bytes → Prop) : Prop :=
  ∃ value, ms.filter (·.1 == name) = [(name, value)] ∧ P value

/-! ### Blanks and whole numbers -/

theorem isBlank_nil : IsBlank [] := by
  simp [IsBlank]

theorem skipSpace_blank {blank : Bytes} (h : IsBlank blank) (bs : Bytes) :
    skipSpace (blank ++ bs) = skipSpace bs :=
  List.dropWhile_append_of_pos h

theorem isWhole_singleton {d : UInt8} (h : isDigit d) : IsWhole [d] := by
  simp [IsWhole, IsDigits, h]

theorem decimal_append_singleton (ds : Bytes) (d : UInt8) :
    decimal (ds ++ [d]) = decimal ds * 10 + digitValue d := by
  rw [decimal, List.foldl_append]
  rfl

theorem octet_digitValue {b : UInt8} (h : isDigit b) :
    digitValue b < 10 ∧ UInt8.ofNat (Nat.digitChar (digitValue b)).toNat = b := by
  rw [isDigit_iff] at h
  have hvalue : digitValue b = b.toNat - 48 := rfl
  have hlt : digitValue b < 10 := by omega
  refine ⟨hlt, ?_⟩
  rw [← UInt8.toNat_inj, Nat.toNat_digitChar_of_lt_ten hlt, UInt8.toNat_ofNat', hvalue]
  omega

theorem digits_of_lt {n : Nat} (h : n < 10) : digits n = [UInt8.ofNat (Nat.digitChar n).toNat] := by
  rw [digits, Nat.toDigits_of_lt_base h, List.map_singleton]

theorem digits_append {n d : Nat} (hn : 0 < n) (hd : d < 10) :
    digits (n * 10 + d) = digits n ++ [UInt8.ofNat (Nat.digitChar d).toNat] := by
  have hdiv : (n * 10 + d) / 10 = n := by omega
  have hmod : (n * 10 + d) % 10 = d := by omega
  rw [digits, Nat.toDigits_of_base_le (by decide) (by omega), hdiv, hmod, List.map_append]
  rfl

/-- The digits of a whole number are those that its value is written with. -/
theorem digits_decimal {ds : Bytes} (h : IsWhole ds) : digits (decimal ds) = ds := by
  induction ds using List.reverseRecOn with
  | nil => exact absurd rfl h.1.1
  | append_singleton ds d ih =>
      obtain ⟨⟨-, hdigits⟩, hzero⟩ := h
      obtain ⟨hlt, hoctet⟩ := octet_digitValue (hdigits d (by simp))
      rw [decimal_append_singleton]
      rcases List.eq_nil_or_concat ds with rfl | ⟨_, _, hconcat⟩
      · have hnone : decimal [] = 0 := rfl
        rw [hnone, Nat.zero_mul, Nat.zero_add, digits_of_lt hlt, hoctet, List.nil_append]
      · have hne : ds ≠ [] := by
          rw [hconcat]
          simp
        -- With a digit behind them the digits in front do not begin with a zero.
        have hhead : ds.head? ≠ some 0x30 := by
          intro hhead
          have hsingle := hzero (by rw [List.head?_append_of_ne_nil _ hne, hhead])
          have hlength := congrArg List.length hsingle
          rw [List.length_append, List.length_singleton, List.length_singleton] at hlength
          exact hne (List.length_eq_zero_iff.mp (by omega))
        have hwhole : IsWhole ds :=
          ⟨⟨hne, fun b hb => hdigits b (by simp [hb])⟩, fun h => absurd h hhead⟩
        have hpos : 0 < decimal ds := by
          rw [Nat.pos_iff_ne_zero]
          intro hnone
          have hds := ih hwhole
          rw [hnone] at hds
          exact hhead (by rw [← hds]; rfl)
        rw [digits_append hpos hlt, ih hwhole, hoctet]

/-- A whole number has one form, the one that is written. -/
theorem IsInteger.eq_written {n : Int} {bs : Bytes} (h : IsInteger n bs) :
    bs = (writtenInteger n).flatMap String.utf8EncodeChar := by
  rw [octets_writtenInteger]
  cases h with
  | natural whole => rw [if_pos (by omega), Int.toNat_natCast, digits_decimal whole]
  | negative whole pos =>
      rw [if_neg (by omega), Int.neg_neg, Int.toNat_natCast, digits_decimal whole]

/-! ### Texts -/

theorem hexValue_of_isHexDigit {n : Nat} {b : UInt8} (h : IsHexDigit n b) : hexValue b = .ok n := by
  have hall : ∀ n < 16, hexValue (UInt8.ofNat (Hex.digit n).toNat) = .ok n ∧
      hexValue (UInt8.ofNat (Hex.digit n).toUpper.toNat) = .ok n := by decide
  obtain ⟨hlt, rfl | rfl⟩ := h
  · exact (hall n hlt).1
  · exact (hall n hlt).2

theorem IsHex.fourDigits {n : Nat} {ds : Bytes} (h : IsHex n ds) (bs : Bytes) :
    fourDigits (ds ++ bs) = .ok n := by
  cases h with
  | four first second third fourth =>
      simp only [List.cons_append, Json.fourDigits, hexValue_of_isHexDigit first,
        hexValue_of_isHexDigit second, hexValue_of_isHexDigit third,
        hexValue_of_isHexDigit fourth, bind, Except.bind, pure, Except.pure]

theorem IsHex.length_eq {n : Nat} {ds : Bytes} (h : IsHex n ds) : ds.length = 4 := by
  cases h
  rfl

theorem codePoint_toNat (c : Char) : codePoint c.toNat = String.utf8EncodeChar c := by
  rw [codePoint, Char.ofNat_toNat]

theorem escape_code (bs : Bytes) :
    escape (0x75 :: bs) = do
      let n ← fourDigits bs
      if 0xDC00 ≤ n ∧ n ≤ 0xDFFF then throw .loneSurrogate
      if 0xD800 ≤ n ∧ n ≤ 0xDBFF then secondSurrogate n (bs.drop 4)
      else return (codePoint n, 5) := rfl

/-- An escape is read as its character. -/
theorem IsEscape.escape_append {c : Char} {form : Bytes} (h : IsEscape c form) (bs : Bytes) :
    escape (form ++ bs) = .ok (String.utf8EncodeChar c, form.length) := by
  cases h with
  | short listed =>
      simp only [shortEscapes, List.mem_cons, Prod.mk.injEq, List.not_mem_nil, or_false] at listed
      obtain ⟨rfl, rfl⟩ | ⟨rfl, rfl⟩ | ⟨rfl, rfl⟩ | ⟨rfl, rfl⟩ | ⟨rfl, rfl⟩ | ⟨rfl, rfl⟩ |
        ⟨rfl, rfl⟩ | ⟨rfl, rfl⟩ := listed <;> rfl
  | @code ds number =>
      have hvalid : c.toNat < 0xD800 ∨ 0xDFFF < c.toNat ∧ c.toNat < 0x110000 := c.valid
      rw [List.cons_append, escape_code, number.fourDigits]
      simp only [bind, Except.bind, pure, Except.pure]
      rw [if_neg (by omega), if_neg (by omega), codePoint_toNat, List.length_cons,
        number.length_eq]
  | @surrogates high low ds ds' first second isHigh isLow number =>
      have hdrop : (ds ++ (backslash :: 0x75 :: (ds' ++ bs))).drop 4 =
          backslash :: 0x75 :: (ds' ++ bs) := List.drop_left' first.length_eq
      rw [List.cons_append, List.append_assoc, List.cons_append, List.cons_append, escape_code,
        first.fourDigits]
      simp only [bind, Except.bind, pure, Except.pure]
      rw [if_neg (by omega), if_pos isHigh, hdrop, secondSurrogate, if_neg (by decide)]
      dsimp only
      rw [if_neg (by decide), second.fourDigits]
      simp only [bind, Except.bind, pure, Except.pure]
      rw [if_neg (by omega), ← number, codePoint_toNat, List.length_cons, List.length_append,
        List.length_cons, List.length_cons, first.length_eq, second.length_eq]

theorem Spells.untilQuote_escape {cs : List Char} {body : Bytes} (h : Spells cs body)
    (rest : Bytes) {fuel : Nat} (hfuel : body.length < fuel) :
    untilQuote escape fuel (body ++ quote :: rest) =
      .ok (cs.flatMap String.utf8EncodeChar, rest) := by
  induction h generalizing fuel with
  | nil =>
      obtain ⟨fuel, rfl⟩ : ∃ f, fuel = f + 1 := ⟨fuel - 1, by omega⟩
      exact untilQuote_quote escape fuel rest
  | plain low quote backslash behind ih =>
      rw [List.length_append] at hfuel
      obtain ⟨fuel, rfl⟩ : ∃ f, fuel = f + 1 := ⟨fuel - 1, by omega⟩
      rw [List.append_assoc, untilQuote_plain escape fuel (isPlain_encodeChar low quote backslash),
        ih (by omega)]
      rfl
  | escaped hc behind ih =>
      rw [List.length_cons, List.length_append] at hfuel
      obtain ⟨fuel, rfl⟩ : ∃ f, fuel = f + 1 := ⟨fuel - 1, by omega⟩
      rw [List.cons_append, List.append_assoc,
        Json.untilQuote_escape fuel _ (hc.escape_append _), ih (by omega)]
      rfl

/-- Two surrogates are passed over one by one, every other escape at once. -/
theorem IsEscape.exists_passed {c : Char} {form : Bytes} (h : IsEscape c form) :
    ∃ n ≤ form.length, ∀ fuel bs,
      untilQuote passedEscape (fuel + n) (backslash :: (form ++ bs)) =
        untilQuote passedEscape fuel bs := by
  have hstep : ∀ fuel (form bs : Bytes), passedEscape (form ++ bs) = .ok ([], form.length) →
      untilQuote passedEscape (fuel + 1) (backslash :: (form ++ bs)) =
        untilQuote passedEscape fuel bs := by
    intro fuel form bs hform
    rw [untilQuote_escape fuel bs hform]
    cases untilQuote passedEscape fuel bs <;> rfl
  have hcode : ∀ {n : Nat} {ds : Bytes}, IsHex n ds → ∀ bs,
      passedEscape ((0x75 :: ds) ++ bs) = .ok ([], (0x75 :: ds).length) := by
    intro n ds hds bs
    rw [List.cons_append, passedEscape, if_pos rfl, hds.fourDigits, List.length_cons,
      hds.length_eq]
    rfl
  cases h with
  | short listed =>
      refine ⟨1, Nat.le_refl 1, fun fuel bs => hstep fuel _ bs ?_⟩
      simp only [shortEscapes, List.mem_cons, Prod.mk.injEq, List.not_mem_nil, or_false] at listed
      obtain ⟨rfl, rfl⟩ | ⟨rfl, rfl⟩ | ⟨rfl, rfl⟩ | ⟨rfl, rfl⟩ | ⟨rfl, rfl⟩ | ⟨rfl, rfl⟩ |
        ⟨rfl, rfl⟩ | ⟨rfl, rfl⟩ := listed <;> rfl
  | code number =>
      exact ⟨1, by simp, fun fuel bs => hstep fuel _ bs (hcode number bs)⟩
  | @surrogates high low ds ds' first second isHigh isLow number =>
      refine ⟨2, by simp only [List.length_cons, List.length_append]; omega, fun fuel bs => ?_⟩
      have hfirst := hstep (fuel + 1) (0x75 :: ds) (backslash :: (0x75 :: ds' ++ bs))
        (hcode first _)
      rw [hstep fuel (0x75 :: ds') bs (hcode second bs)] at hfirst
      rw [← hfirst]
      simp

theorem Spells.exists_passed {cs : List Char} {body : Bytes} (h : Spells cs body) (rest : Bytes)
    {fuel : Nat} (hfuel : body.length < fuel) :
    ∃ octets, untilQuote passedEscape fuel (body ++ quote :: rest) = .ok (octets, rest) := by
  induction h generalizing fuel with
  | nil =>
      obtain ⟨fuel, rfl⟩ : ∃ f, fuel = f + 1 := ⟨fuel - 1, by omega⟩
      exact ⟨_, untilQuote_quote passedEscape fuel rest⟩
  | plain low quote backslash behind ih =>
      rw [List.length_append] at hfuel
      obtain ⟨fuel, rfl⟩ : ∃ f, fuel = f + 1 := ⟨fuel - 1, by omega⟩
      obtain ⟨octets, hoctets⟩ := @ih (fuel + 1) (by omega)
      rw [List.append_assoc, untilQuote_plain _ fuel (isPlain_encodeChar low quote backslash),
        hoctets]
      exact ⟨_, rfl⟩
  | escaped hc behind ih =>
      rw [List.length_cons, List.length_append] at hfuel
      obtain ⟨n, hn, hpassed⟩ := hc.exists_passed
      obtain ⟨fuel, rfl⟩ : ∃ f, fuel = f + n := ⟨fuel - n, by omega⟩
      rw [List.cons_append, List.append_assoc, hpassed]
      exact ih (by omega)

/-- Every spelling of a text is read as the text, behind the opening quote. -/
theorem Spells.textBody_append {s : String} {body : Bytes} (h : Spells s.toList body)
    (rest : Bytes) : textBody (body ++ quote :: rest) = .ok (s, rest) := by
  rw [textBody, h.untilQuote_escape rest (by rw [List.length_append]; omega)]
  simp only [bind, Except.bind]
  rw [← Utf8.encode, Utf8.decode?_encode]
  rfl

theorem Spells.passText_append {cs : List Char} {body : Bytes} (h : Spells cs body)
    (rest : Bytes) : passText (body ++ quote :: rest) = .ok rest := by
  have hfuel : body.length < (body ++ quote :: rest).length + 1 := by
    rw [List.length_append]
    omega
  obtain ⟨octets, hoctets⟩ := h.exists_passed rest hfuel
  rw [passText, hoctets]
  rfl

/-! ### Members -/

section

variable {ms : List (String × Bytes)} {bs : Bytes}

/-- A list of members begins with one, which the end or the others stand behind. -/
theorem Form.exists_member {m : String × Bytes} (h : Form (.members (m :: ms)) bs) :
    ∃ front tail, Form (.member m.1 m.2) front ∧ bs = front ++ tail ∧
      (ms = [] ∧ tail = [0x7D] ∨ ∃ others, Form (.members ms) others ∧ tail = 0x2C :: others) := by
  cases h with
  | lastMember form => exact ⟨_, _, form, rfl, Or.inl ⟨rfl, rfl⟩⟩
  | moreMembers form behind => exact ⟨_, _, form, rfl, Or.inr ⟨_, behind, rfl⟩⟩

theorem Form.length_le (h : Form (.members ms) bs) : ms.length ≤ bs.length := by
  induction ms generalizing bs with
  | nil => exact Nat.zero_le _
  | cons m ms ih =>
      obtain ⟨front, tail, -, rfl, ⟨rfl, rfl⟩ | ⟨others, hms, rfl⟩⟩ := Form.exists_member h
      · simp
      · have hlength := ih hms
        simp only [List.length_append, List.length_cons]
        omega

end

/-- Nothing has to stand between a name, its colon and its value. -/
theorem Form.closeMember {name : String} {spelling value : Bytes} (named : IsText name spelling)
    (form : Form .value value) : Form (.member name value) (spelling ++ 0x3A :: value) := by
  have h := Form.member isBlank_nil named isBlank_nil isBlank_nil form isBlank_nil
  simpa using h

section

variable {ms : List (String × Bytes)} {name : String} {P : Bytes → Prop} {value : Bytes}

theorem Tells.of_mem (h : Tells ms name P) (hm : (name, value) ∈ ms) : P value := by
  obtain ⟨value', hfilter, hvalue⟩ := h
  have hmem : (name, value) ∈ ms.filter (·.1 == name) := List.mem_filter.mpr ⟨hm, by simp⟩
  rw [hfilter, List.mem_singleton, Prod.mk.injEq] at hmem
  rw [hmem.2]
  exact hvalue

theorem count_names (ms : List (String × Bytes)) (name : String) :
    (ms.map Prod.fst).count name = (ms.filter (·.1 == name)).length := by
  rw [List.count, List.countP_map, List.countP_eq_length_filter]
  rfl

theorem Tells.count_eq (h : Tells ms name P) : (ms.map Prod.fst).count name = 1 := by
  obtain ⟨value, hfilter, -⟩ := h
  rw [count_names, hfilter, List.length_singleton]

theorem Tells.mem_names (h : Tells ms name P) : name ∈ (ms.map Prod.fst).reverse := by
  rw [List.mem_reverse, ← List.count_pos_iff, h.count_eq]
  exact Nat.one_pos

end

end TokenAuthority.Json

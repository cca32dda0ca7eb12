import TokenAuthority.Proofs.Except
import TokenAuthority.Proofs.Json.Passing

/-!
# What readers take

A reader of a known kind takes a whole value or none: what it leaves is what is left where the
value is passed over. A text, a whole number, a name and a `null` are read from every spelling.
-/

namespace TokenAuthority.Json

/-! ### Numbers that are read are passed over -/

section

variable {negative : Bool} {digits : Nat} {before : Int} {bs rest : Bytes} {n : Number}

/-- Behind the sign of an exponent its digits are passed over. -/
theorem passExponent_of_sign {minus : Bool} {b : UInt8} {tail : Bytes} (hb : isDigit b)
    (hsign : (match bs with
      | 0x2B :: rest => (false, rest)
      | 0x2D :: rest => (true, rest)
      | _ => (false, bs)) = (minus, b :: tail)) :
    passExponent bs = .ok ((b :: tail).dropWhile isDigit) := by
  unfold passExponent
  split at hsign
  · cases hsign
    simp [hb]
  · cases hsign
    simp [hb]
  · cases hsign
    have hplus := ne_of_isDigit (c := 0x2B) hb (by decide)
    have hminus := ne_of_isDigit (c := 0x2D) hb (by decide)
    simp [hb, hplus, hminus]

theorem passExponent_of_exponent (h : exponent negative digits before bs = .ok (n, rest)) :
    passExponent bs = .ok rest := by
  revert h
  fun_cases exponent negative digits before bs with
  | case1 => nofun
  | case2 minus b tail hb e hsign htaken =>
      intro h
      rw [htaken] at h
      obtain ⟨m, -, hm⟩ := bind_eq_ok_iff.mp h
      cases hm
      exact passExponent_of_sign hb hsign
  | case3 minus b tail hb e left hleft hlarge hsign htaken =>
      intro h
      rw [htaken] at h
      dsimp only at h
      rw [if_neg hleft, if_pos hlarge] at h
      cases h
  | case4 minus b tail hb e left hleft hfits hsign htaken =>
      intro h
      rw [htaken] at h
      dsimp only at h
      rw [if_neg hleft, if_neg hfits] at h
      cases h
      exact passExponent_of_sign hb hsign
  | case5 => nofun

theorem passExponentIfAny_of_exponentIfAny
    (h : exponentIfAny negative digits before bs = .ok (n, rest)) :
    passExponentIfAny bs = .ok rest := by
  unfold exponentIfAny at h
  cases bs with
  | nil =>
      obtain ⟨m, -, hm⟩ := bind_eq_ok_iff.mp h
      cases hm
      rfl
  | cons b others =>
      dsimp only at h
      rw [passExponentIfAny]
      split_ifs at h ⊢
      · exact passExponent_of_exponent h
      · obtain ⟨m, -, hm⟩ := bind_eq_ok_iff.mp h
        cases hm
        rfl

theorem passBehindWhole_of_fraction (h : fraction negative digits before bs = .ok (n, rest)) :
    passBehindWhole (0x2E :: bs) = .ok rest := by
  unfold fraction at h
  dsimp only at h
  by_cases hown : bs.takeWhile isDigit = []
  · rw [if_pos hown] at h
    cases h
  · rw [if_neg hown] at h
    have hpass := passExponentIfAny_of_exponentIfAny h
    cases bs with
    | nil => exact absurd rfl hown
    | cons b others =>
        have hb : isDigit b := by
          by_contra hb
          exact hown (List.takeWhile_cons_of_neg hb)
        unfold passBehindWhole
        dsimp only
        rw [if_pos rfl, if_pos hb, hpass]

theorem passBehindWhole_of_behindWhole (h : behindWhole negative digits bs = .ok (n, rest)) :
    passBehindWhole bs = .ok rest := by
  unfold behindWhole at h
  cases bs with
  | nil =>
      cases h
      rfl
  | cons b others =>
      dsimp only at h
      by_cases hpoint : b = 0x2E
      · rw [if_pos hpoint] at h
        rw [hpoint]
        exact passBehindWhole_of_fraction h
      · unfold passBehindWhole
        dsimp only
        rw [if_neg hpoint] at h ⊢
        rw [passExponentIfAny]
        split_ifs at h ⊢
        · exact passExponent_of_exponent h
        · cases h
          rfl

/-- A number that is read leaves what it leaves where it is passed over. -/
theorem passNumber_of_number (h : number negative bs = .ok (n, rest)) :
    passNumber bs = .ok rest := by
  unfold number at h
  cases bs with
  | nil => cases h
  | cons b others =>
      dsimp only at h
      rw [passNumber]
      by_cases hzero : b = 0x30
      · rw [if_pos hzero] at h ⊢
        split_ifs at h ⊢ with hdigit
        exact passBehindWhole_of_behindWhole h
      · rw [if_neg hzero] at h ⊢
        by_cases hb : isDigit b
        · rw [if_pos hb] at h ⊢
          rw [List.dropWhile_cons_of_pos hb] at h
          split_ifs at h with hleft
          · exact passBehindWhole_of_behindWhole h
          · generalize others.dropWhile isDigit = tail at h ⊢
            cases tail with
            | nil =>
                have hpass := passExponentIfAny_of_exponentIfAny h
                exact hpass
            | cons c tail =>
                dsimp only at h
                by_cases hpoint : c = 0x2E
                · rw [if_pos hpoint] at h
                  rw [hpoint]
                  exact passBehindWhole_of_fraction h
                · rw [if_neg hpoint] at h
                  unfold passBehindWhole
                  dsimp only
                  rw [if_neg hpoint]
                  exact passExponentIfAny_of_exponentIfAny h
        · rw [if_neg hb] at h
          cases h

end

/-! ### Readers -/

/-- A reader takes a whole value if it takes anything. -/
def TakesValues {α : Type} (read : Reader α) : Prop :=
  ∀ {value blank rest rest' : Bytes} {a : α}, Form .value value → IsBlank blank → EndsWhole rest →
    read (blank ++ (value ++ rest)) = .ok (a, rest') → rest' = rest

section

variable {b : UInt8} {blank bs rest rest' spelling : Bytes} {s expected : String}

theorem skipSpace_blank_cons (hblank : IsBlank blank) (hb : ¬isSpace b) :
    skipSpace (blank ++ b :: bs) = b :: bs := by
  rw [skipSpace_blank hblank, skipSpace_of_not_space hb]

theorem IsNumber.exists_cons (h : IsNumber bs) :
    ∃ b others, bs = b :: others ∧ (b = 0x2D ∨ isDigit b) := by
  cases h with
  | positive unsigned =>
      obtain ⟨b, others, rfl, hb⟩ := unsigned.exists_cons
      exact ⟨b, others, rfl, Or.inr hb⟩
  | negative unsigned => exact ⟨_, _, rfl, Or.inl rfl⟩

theorem ne_of_number (h : b = 0x2D ∨ isDigit b) :
    ¬isSpace b ∧ b ≠ 0x6E ∧ b ≠ quote ∧ b ≠ 0x7B := by
  obtain rfl | hb := h
  · decide
  · exact ⟨(ne_mark_of_isDigit hb).1, ne_of_isDigit hb (by decide), ne_of_isDigit hb (by decide),
      ne_of_isDigit hb (by decide)⟩

/-- What the first octet of a value tells of the value. -/
structure Begins (b : UInt8) (others : Bytes) : Prop where
  notSpace : ¬isSpace b
  null : b = 0x6E → others = nullTail
  number : b = 0x2D ∨ isDigit b → IsNumber (b :: others)
  text : b = quote → ∃ s, IsText s (b :: others)
  object : b = 0x7B → (∃ inside, IsBlank inside ∧ others = inside ++ [0x7D]) ∨
    ∃ ms, Form (.members ms) others

theorem Begins.of_other {others : Bytes} (hspace : ¬isSpace b)
    (h : b ≠ 0x6E ∧ ¬(b = 0x2D ∨ isDigit b) ∧ b ≠ quote ∧ b ≠ 0x7B) : Begins b others where
  notSpace := hspace
  null hb := absurd hb h.1
  number hb := absurd hb h.2.1
  text hb := absurd hb h.2.2.1
  object hb := absurd hb h.2.2.2

theorem Form.exists_begins {value : Bytes} (h : Form .value value) :
    ∃ b others, value = b :: others ∧ Begins b others := by
  cases h with
  | null =>
      refine ⟨_, _, rfl, by decide, fun _ => rfl, ?_, ?_, ?_⟩
      · exact fun h => absurd h (by decide)
      · exact fun h => absurd h (by decide)
      · exact fun h => absurd h (by decide)
  | yes => exact ⟨_, _, rfl, .of_other (by decide) (by decide)⟩
  | no => exact ⟨_, _, rfl, .of_other (by decide) (by decide)⟩
  | number digits =>
      obtain ⟨b, others, rfl, hb⟩ := digits.exists_cons
      obtain ⟨hspace, hnull, hquote, hopen⟩ := ne_of_number hb
      exact ⟨b, others, rfl, hspace, fun h => absurd h hnull, fun _ => digits,
        fun h => absurd h hquote, fun h => absurd h hopen⟩
  | @text s bs spelled =>
      have hspelled := spelled
      cases spelled with
      | mk _ =>
          refine ⟨_, _, rfl, by decide, ?_, ?_, fun _ => ⟨s, hspelled⟩, ?_⟩
          · exact fun h => absurd h (by decide)
          · exact fun h => absurd h (by decide)
          · exact fun h => absurd h (by decide)
  | emptyList _ => exact ⟨_, _, rfl, .of_other (by decide) (by decide)⟩
  | list _ => exact ⟨_, _, rfl, .of_other (by decide) (by decide)⟩
  | emptyObject blank =>
      refine ⟨_, _, rfl, by decide, ?_, ?_, ?_, fun _ => Or.inl ⟨_, blank, rfl⟩⟩
      · exact fun h => absurd h (by decide)
      · exact fun h => absurd h (by decide)
      · exact fun h => absurd h (by decide)
  | object members =>
      refine ⟨_, _, rfl, by decide, ?_, ?_, ?_, fun _ => Or.inr ⟨_, members⟩⟩
      · exact fun h => absurd h (by decide)
      · exact fun h => absurd h (by decide)
      · exact fun h => absurd h (by decide)

/-! #### Texts -/

theorem textAs_append (h : IsText s spelling) (hblank : IsBlank blank) :
    textAs expected (blank ++ (spelling ++ rest)) = .ok (s, rest) := by
  cases h with
  | mk spelled =>
      rw [List.cons_append, List.append_assoc, textAs, skipSpace_blank_cons hblank (by decide)]
      dsimp only
      rw [if_pos rfl, List.singleton_append, spelled.textBody_append]

theorem textAs_ne_ok (hblank : IsBlank blank) (hspace : ¬isSpace b) (hb : b ≠ quote)
    {found : String × Bytes} : textAs expected (blank ++ b :: bs) ≠ .ok found := by
  rw [textAs, skipSpace_blank_cons hblank hspace]
  dsimp only
  rw [if_neg hb]
  nofun

/-- Only a text is read as a text. -/
theorem isText_of_textAs (h : Form .value bs) (hblank : IsBlank blank)
    (hread : textAs expected (blank ++ (bs ++ rest)) = .ok (s, rest')) :
    IsText s bs ∧ rest' = rest := by
  obtain ⟨b, others, rfl, hb⟩ := h.exists_begins
  by_cases hquote : b = quote
  · obtain ⟨s', spelled⟩ := hb.text hquote
    rw [textAs_append spelled hblank] at hread
    cases hread
    exact ⟨spelled, rfl⟩
  · exact absurd hread (textAs_ne_ok hblank hb.notSpace hquote)

theorem takesValues_text : TakesValues text :=
  fun h hblank _ hread => (isText_of_textAs h hblank hread).2

theorem optionalText_null (hblank : IsBlank blank) :
    optionalText (blank ++ (0x6E :: nullTail ++ rest)) = .ok (none, rest) := by
  rw [List.cons_append, optionalText, skipSpace_blank_cons hblank (by decide)]
  dsimp only
  rw [if_pos rfl, word_append]
  rfl

/-- A text that may be absent is read as a text unless `null` stands there. -/
theorem optionalText_of_ne (hblank : IsBlank blank) (hspace : ¬isSpace b) (hb : b ≠ 0x6E) :
    optionalText (blank ++ b :: bs) =
      (text (blank ++ b :: bs)).map fun (s, rest) => (some s, rest) := by
  have htext : text (blank ++ b :: bs) = text (b :: bs) := by
    rw [text, textAs, textAs, skipSpace_blank_cons hblank hspace, skipSpace_of_not_space hspace]
  rw [optionalText, skipSpace_blank_cons hblank hspace]
  dsimp only
  rw [if_neg hb, htext]
  cases text (b :: bs) <;> rfl

theorem optionalText_append (h : IsText s spelling) (hblank : IsBlank blank) :
    optionalText (blank ++ (spelling ++ rest)) = .ok (some s, rest) := by
  have htext : text (blank ++ (spelling ++ rest)) = .ok (s, rest) := textAs_append h hblank
  cases h with
  | mk spelled =>
      rw [List.cons_append] at htext ⊢
      rw [optionalText_of_ne hblank (by decide) (by decide), htext]
      rfl

theorem IsOptionalText.optionalText_append {s? : Option String} {value : Bytes}
    (h : IsOptionalText s? value) (hblank : IsBlank blank) :
    optionalText (blank ++ (value ++ rest)) = .ok (s?, rest) := by
  cases h with
  | null => exact optionalText_null hblank
  | text spelled => exact Json.optionalText_append spelled hblank

theorem takesValues_optionalText : TakesValues optionalText := by
  intro value blank rest rest' s? h hblank hrest hread
  obtain ⟨b, others, rfl, hb⟩ := h.exists_begins
  by_cases hnull : b = 0x6E
  · rw [hnull, hb.null hnull, optionalText_null hblank] at hread
    cases hread
    rfl
  · rw [List.cons_append, optionalText_of_ne hblank hb.notSpace hnull, ← List.cons_append] at hread
    cases htext : text (blank ++ (b :: others ++ rest)) with
    | error e =>
        rw [htext] at hread
        cases hread
    | ok found =>
        rw [htext] at hread
        cases hread
        exact takesValues_text h hblank hrest htext

/-! #### Whole numbers -/

theorem integer_append {n : Int} (h : IsInteger n spelling) (hlow : -2 ^ 63 ≤ n)
    (hhigh : n < 2 ^ 63) (hblank : IsBlank blank) (hrest : EndsWhole rest) :
    integer (blank ++ (spelling ++ rest)) = .ok (n, rest) := by
  rw [h.eq_written, integer, skipSpace_blank hblank]
  exact integer_written hlow hhigh hrest

theorem integer_ne_ok (hblank : IsBlank blank) (hspace : ¬isSpace b)
    (hb : ¬(b = 0x2D ∨ isDigit b)) {found : Int × Bytes} :
    integer (blank ++ b :: bs) ≠ .ok found := by
  rw [integer, skipSpace_blank_cons hblank hspace]
  dsimp only
  rw [if_neg fun h => hb (Or.inl h), if_neg fun h => hb (Or.inr h)]
  intro h
  cases h

/-- A whole number leaves what is left behind its digits. -/
theorem rest_of_toInt? {negative : Bool} {n : Int}
    (h : (do
      let (m, rest) ← number negative bs
      return (← m.toInt?, rest)) = Except.ok (n, rest')) : passNumber bs = .ok rest' := by
  obtain ⟨⟨m, behind⟩, hnumber, h⟩ := bind_eq_ok_iff.mp h
  obtain ⟨k, -, h⟩ := bind_eq_ok_iff.mp h
  cases h
  exact passNumber_of_number hnumber

theorem takesValues_integer : TakesValues integer := by
  intro value blank rest rest' n h hblank hrest hread
  obtain ⟨b, others, rfl, hb⟩ := h.exists_begins
  by_cases hnumber : b = 0x2D ∨ isDigit b
  · rw [List.cons_append, integer, skipSpace_blank_cons hblank hb.notSpace] at hread
    dsimp only at hread
    generalize hspelled : b :: others = value at h
    have digits := hb.number hnumber
    rw [hspelled] at digits
    cases digits with
    | positive unsigned =>
        have hpass := unsigned.passNumber_append hrest
        obtain ⟨b', others', hcons, hdigit⟩ := unsigned.exists_cons
        obtain ⟨rfl, rfl⟩ := List.cons.inj (hspelled.trans hcons)
        have hminus : b ≠ 0x2D := ne_of_isDigit hdigit (by decide)
        rw [hcons, List.cons_append] at hpass
        rw [if_neg hminus, if_pos hdigit] at hread
        exact Except.ok.inj ((rest_of_toInt? hread).symm.trans hpass)
    | negative unsigned =>
        obtain ⟨rfl, rfl⟩ := List.cons.inj hspelled
        rw [if_pos rfl] at hread
        exact Except.ok.inj ((rest_of_toInt? hread).symm.trans (unsigned.passNumber_append hrest))
  · exact absurd hread (integer_ne_ok hblank hb.notSpace hnumber)

/-! #### Choices -/

section

variable {α : Type} {choices : List (String × α)} {a : α}

/-- A text is read as the choice that it names. -/
theorem choice_append (h : IsText s spelling) (hblank : IsBlank blank) :
    choice choices (blank ++ (spelling ++ rest)) = do return (← choiceOf choices s, rest) := by
  cases h with
  | mk spelled =>
      rw [List.cons_append, List.append_assoc, choice, skipSpace_blank_cons hblank (by decide)]
      dsimp only
      rw [if_neg (by decide), if_pos rfl, List.singleton_append, spelled.textBody_append]
      rfl

theorem choice_ne_ok (hblank : IsBlank blank) (hspace : ¬isSpace b) (hquote : b ≠ quote)
    (hopen : b ≠ 0x7B) {found : α × Bytes} : choice choices (blank ++ b :: bs) ≠ .ok found := by
  rw [choice, skipSpace_blank_cons hblank hspace]
  dsimp only
  rw [if_neg hopen, if_neg hquote]
  nofun

/-- Behind the opening brace a choice is a name with `null` behind it, and nothing else. -/
theorem choice_object (hblank : IsBlank blank) :
    choice choices (blank ++ 0x7B :: bs) = (do
      let (name, rest) ← textAs "variant identifier" bs
      let a ← choiceOf choices name
      let rest ← colon rest
      match skipSpace rest with
      | [] => throw .endInValue
      | b :: rest =>
        if b ≠ 0x6E then throw (wrong "unit" (b :: rest))
        let rest ← word nullTail rest
        match skipSpace rest with
        | [] => throw .endInObject
        | b :: rest => if b = 0x7D then return (a, rest) else throw .noValue) := by
  rw [choice, skipSpace_blank_cons hblank (by decide)]
  dsimp only
  refine (if_pos rfl).trans ?_
  rfl

/-- Of the members of an object a choice reads the first, up to the octet behind it. -/
theorem rest_of_choice_member {name : String} {value : Bytes} {mark : UInt8}
    (h : Form (.member name value) bs) (hblank : IsBlank blank) (hmark : ¬isSpace mark)
    (hread : choice choices (blank ++ 0x7B :: (bs ++ mark :: rest)) = .ok (a, rest')) :
    mark = 0x7D ∧ rest' = rest := by
  cases h with
  | member leading named middle inner form trailing =>
      obtain ⟨b, others, rfl, hb⟩ := form.exists_begins
      rw [choice_object hblank] at hread
      simp only [List.append_assoc, List.cons_append] at hread
      rw [textAs_append named leading] at hread
      obtain ⟨_, hname, hread⟩ := bind_eq_ok_iff.mp hread
      cases hname
      obtain ⟨chosen, -, hread⟩ := bind_eq_ok_iff.mp hread
      rw [colon_append middle] at hread
      obtain ⟨_, hcolon, hread⟩ := bind_eq_ok_iff.mp hread
      cases hcolon
      rw [skipSpace_blank_cons inner hb.notSpace] at hread
      dsimp only at hread
      by_cases hnull : b = 0x6E
      · rw [if_neg (not_not.mpr hnull), hb.null hnull, word_append] at hread
        obtain ⟨_, hword, hread⟩ := bind_eq_ok_iff.mp hread
        cases hword
        rw [skipSpace_blank_cons trailing hmark] at hread
        dsimp only at hread
        split_ifs at hread with hclose
        cases hread
        exact ⟨hclose, rfl⟩
      · rw [if_pos hnull] at hread
        cases hread

theorem takesValues_choice : TakesValues (choice choices) := by
  intro value blank rest rest' a h hblank hrest hread
  obtain ⟨b, others, rfl, hb⟩ := h.exists_begins
  by_cases hquote : b = quote
  · obtain ⟨s, spelled⟩ := hb.text hquote
    rw [choice_append spelled hblank] at hread
    obtain ⟨a', -, hread⟩ := bind_eq_ok_iff.mp hread
    cases hread
    rfl
  · by_cases hopen : b = 0x7B
    · subst hopen
      obtain ⟨inside, inner, rfl⟩ | ⟨ms, members⟩ := hb.object rfl
      · rw [List.cons_append, List.append_assoc, choice_object hblank] at hread
        obtain ⟨found, htext, -⟩ := bind_eq_ok_iff.mp hread
        exact absurd htext (textAs_ne_ok inner (by decide) (by decide))
      · cases members with
        | lastMember form =>
            rw [List.cons_append, List.append_assoc] at hread
            exact (rest_of_choice_member form hblank (by decide) hread).2
        | moreMembers form _ =>
            rw [List.cons_append, List.append_assoc, List.cons_append] at hread
            exact absurd (rest_of_choice_member form hblank (by decide) hread).1 (by decide)
    · exact absurd hread (choice_ne_ok hblank hb.notSpace hquote hopen)

end

end

end TokenAuthority.Json

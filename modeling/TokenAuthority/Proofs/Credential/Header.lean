import TokenAuthority.Credential
import TokenAuthority.Proofs.Text.Split
import TokenAuthority.Proofs.Text.Trim
import Mathlib.Data.List.Forall2

/-!
# The grammar of authorization headers

The value of a header that holds a token is told part by part: blanks, the scheme in any case,
one space, more blanks, the token, and blanks. A blank may be any character with the property
`White_Space`, but what ends the scheme is the space alone. The reader accepts these values and
no others, and it finds the parts that a value is made of, because there are no others.
-/

namespace TokenAuthority

/-! ### Letters in either case -/

namespace Text

theorem toNat_toLower (c : Char) :
    c.toLower.toNat = if 65 ≤ c.toNat ∧ c.toNat ≤ 90 then c.toNat + 32 else c.toNat := by
  have hcapital : (c.val ≥ 'A'.val ∧ c.val ≤ 'Z'.val) ↔ 65 ≤ c.toNat ∧ c.toNat ≤ 90 := by
    simp only [ge_iff_le, UInt32.le_iff_toNat_le]
    rfl
  by_cases h : 65 ≤ c.toNat ∧ c.toNat ≤ 90
  · have hlower : c.toLower = _ := dif_pos (hcapital.mpr h)
    rw [if_pos h, hlower, Char.toNat, UInt32.toNat_add]
    exact Nat.mod_eq_of_lt (show c.toNat + 32 < 2 ^ 32 by omega)
  · rw [if_neg h]
    exact congrArg Char.toNat (dif_neg (mt hcapital.mp h))

theorem toNat_toUpper (c : Char) :
    c.toUpper.toNat = if 97 ≤ c.toNat ∧ c.toNat ≤ 122 then c.toNat - 32 else c.toNat := by
  have hsmall : ('a'.val ≤ c.val ∧ c.val ≤ 'z'.val) ↔ 97 ≤ c.toNat ∧ c.toNat ≤ 122 := by
    simp only [UInt32.le_iff_toNat_le]
    rfl
  by_cases h : 97 ≤ c.toNat ∧ c.toNat ≤ 122
  · -- A capital stands in front of its small letter, so that the difference wraps around.
    have hupper : c.toUpper = _ := dif_pos (hsmall.mpr h)
    have hwrap : ('A'.val - 'a'.val).toNat = 2 ^ 32 - 32 := rfl
    rw [if_pos h, hupper, Char.toNat, UInt32.toNat_add, hwrap]
    change (c.toNat + (2 ^ 32 - 32)) % 2 ^ 32 = c.toNat - 32
    omega
  · rw [if_neg h]
    exact congrArg Char.toNat (dif_neg (mt hsmall.mp h))

theorem toNat_of_isLower {c : Char} (h : c.isLower) : 97 ≤ c.toNat ∧ c.toNat ≤ 122 := by
  obtain ⟨hfirst, hlast⟩ := Bool.and_eq_true_iff.mp h
  exact ⟨UInt32.le_iff_toNat_le.mp (of_decide_eq_true hfirst),
    UInt32.le_iff_toNat_le.mp (of_decide_eq_true hlast)⟩

/-- What becomes a small letter is that letter or its capital, and nothing else. -/
theorem toLower_eq_iff {c letter : Char} (h : letter.isLower) :
    c.toLower = letter ↔ c = letter ∨ c = letter.toUpper := by
  have hletter := toNat_of_isLower h
  rw [← Char.toNat_inj, ← Char.toNat_inj, ← Char.toNat_inj, toNat_toLower, toNat_toUpper,
    if_pos hletter]
  split_ifs with hcapital <;> omega

theorem map_toLower_eq_iff {cs letters : List Char} (h : letters.all Char.isLower) :
    cs.map Char.toLower = letters ↔
      List.Forall₂ (fun c letter => c = letter ∨ c = letter.toUpper) cs letters := by
  induction letters generalizing cs with
  | nil => simp
  | cons letter letters ih =>
      rw [List.all_cons, Bool.and_eq_true] at h
      obtain ⟨hletter, hletters⟩ := h
      cases cs with
      | nil => simp
      | cons c cs =>
          rw [List.map_cons, List.cons.injEq, List.forall₂_cons, toLower_eq_iff hletter,
            ih hletters]

end Text

namespace Credential

/-! ### The scheme -/

/-- The scheme, each of its letters in either case. -/
def SpellsScheme (cs : List Char) : Prop :=
  List.Forall₂ (fun c letter => c = letter ∨ c = letter.toUpper) cs "bearer".toList

theorem map_toLower_scheme : scheme.map Char.toLower = "bearer".toList := by decide

theorem spellsScheme_iff {cs : List Char} :
    SpellsScheme cs ↔ cs.map Char.toLower = scheme.map Char.toLower := by
  rw [map_toLower_scheme]
  exact (Text.map_toLower_eq_iff (by decide)).symm

theorem spellsScheme_scheme : SpellsScheme scheme := spellsScheme_iff.mpr rfl

instance (cs : List Char) : Decidable (SpellsScheme cs) :=
  decidable_of_iff _ spellsScheme_iff.symm

theorem eqIgnoringCase_scheme (cs : List Char) :
    Text.eqIgnoringCase cs scheme = decide (SpellsScheme cs) := by
  rw [Bool.eq_iff_iff, decide_eq_true_iff, Text.eqIgnoringCase, beq_iff_eq, spellsScheme_iff]

namespace SpellsScheme

variable {cs : List Char}

theorem ne_nil (h : SpellsScheme cs) : cs ≠ [] := by
  rintro rfl
  exact absurd h (by decide)

theorem not_isBlank (h : SpellsScheme cs) : ∀ c ∈ cs, ¬Text.isBlank c := by
  have hletters : "bearer".toList.all (fun letter => letter.isLower && !Text.isBlank letter &&
      !Text.isBlank letter.toUpper) := by decide
  intro c hc
  have hlower : c.toLower ∈ "bearer".toList := by
    rw [← map_toLower_scheme, ← spellsScheme_iff.mp h]
    exact List.mem_map_of_mem hc
  have hletter := List.all_eq_true.mp hletters _ hlower
  simp only [Bool.and_eq_true, Bool.not_eq_true'] at hletter
  obtain ⟨⟨hislower, hsmall⟩, hcapital⟩ := hletter
  obtain hcase | hcase := (Text.toLower_eq_iff hislower).mp rfl
  · rw [hcase, hsmall]
    exact Bool.false_ne_true
  · rw [hcase, hcapital]
    exact Bool.false_ne_true

theorem space_not_mem (h : SpellsScheme cs) : ' ' ∉ cs :=
  fun hmem => h.not_isBlank ' ' hmem (by decide)

end SpellsScheme

/-! ### The reader -/

section

variable {value : String} {cs rest : List Char}

/-- Without a space there is no token, and the scheme at most. -/
theorem ofHeader_of_no_space (h : Text.trim value.toList = cs) (hspace : ' ' ∉ cs) :
    ofHeader value = .error (if SpellsScheme cs then .emptyToken else .notBearer) := by
  rw [ofHeader, h, Text.splitOnce_of_not_mem hspace]
  simp only [eqIgnoringCase_scheme]
  by_cases hscheme : SpellsScheme cs
  · simp [hscheme]
  · simp [hscheme]

/-- Behind a space there is more than blanks, because no blank is left at the end. -/
theorem trim_ne_nil_of_space (h : Text.trim value.toList = cs ++ ' ' :: rest) :
    Text.trim rest ≠ [] := by
  have htrimmed := Text.trimmed_trim value.toList
  rw [h] at htrimmed
  intro hnil
  refine htrimmed.not_allBlank (List.cons_ne_nil ' ' rest) ?_
  exact List.forall_mem_cons.mpr ⟨by decide, Text.trim_eq_nil_iff.mp hnil⟩

/-- In front of a space there is the scheme or another word, and behind it the token. -/
theorem ofHeader_of_space (h : Text.trim value.toList = cs ++ ' ' :: rest) (hspace : ' ' ∉ cs) :
    ofHeader value =
      if SpellsScheme cs then .ok (.bearer (String.ofList (Text.trim rest)))
      else .error .notBearer := by
  have htoken := trim_ne_nil_of_space h
  rw [ofHeader, h, Text.splitOnce_append_cons hspace]
  simp only [eqIgnoringCase_scheme]
  by_cases hscheme : SpellsScheme cs
  · simp [hscheme, htoken]
  · simp [hscheme]

end

/-! ### The grammar -/

/-- The value of a header that holds a token, in its parts. -/
structure Authorization where
  before : List Char
  word : List Char
  /-- The blanks in front of the token, less the space behind the scheme. -/
  between : List Char
  token : List Char
  after : List Char
  blank_before : Text.AllBlank before
  spells : SpellsScheme word
  blank_between : Text.AllBlank between
  token_ne_nil : token ≠ []
  trimmed : Text.Trimmed token
  blank_after : Text.AllBlank after

namespace Authorization

/-- The value that the parts make up. -/
def text (a : Authorization) : String :=
  String.ofList (a.before ++ a.word ++ [' '] ++ a.between ++ a.token ++ a.after)

/-- A header of nothing but the scheme, a space and the token. -/
def plain (token : List Char) (hne : token ≠ []) (htrimmed : Text.Trimmed token) :
    Authorization where
  before := []
  word := scheme
  between := []
  token := token
  after := []
  blank_before := Text.allBlank_nil
  spells := spellsScheme_scheme
  blank_between := Text.allBlank_nil
  token_ne_nil := hne
  trimmed := htrimmed
  blank_after := Text.allBlank_nil

theorem text_plain (token : List Char) (hne : token ≠ []) (htrimmed : Text.Trimmed token) :
    (plain token hne htrimmed).text = "Bearer " ++ String.ofList token := by
  rw [← String.toList_inj]
  simp [text, plain, scheme]

variable (a : Authorization)

/-- What is between the outer blanks. -/
def core : List Char := a.word ++ ' ' :: (a.between ++ a.token)

theorem toList_text : a.text.toList = a.before ++ a.core ++ a.after := by
  simp [text, core]

theorem trimmed_core : Text.Trimmed a.core where
  head c hc := by
    rw [core, List.head?_append_of_ne_nil _ a.spells.ne_nil] at hc
    exact a.spells.not_isBlank c (List.mem_of_head? hc)
  last c hc := by
    rw [core, List.append_cons, ← List.append_assoc,
      List.getLast?_append_of_ne_nil _ a.token_ne_nil] at hc
    exact a.trimmed.last c hc

theorem core_ne_nil : a.core ≠ [] := List.append_ne_nil_of_left_ne_nil a.spells.ne_nil _

/-- No value falls into such parts in two ways. -/
theorem text_injective : Function.Injective text := by
  intro a b htext
  have htoList := congrArg String.toList htext
  rw [toList_text, toList_text] at htoList
  obtain ⟨hbefore, hcore, hafter⟩ := Text.eq_of_append_eq a.blank_before a.core_ne_nil
    a.trimmed_core a.blank_after b.blank_before b.trimmed_core b.blank_after htoList
  -- The scheme ends at the first space, because it has none itself.
  have hsplit := congrArg (Text.splitOnce ' ') hcore
  rw [core, core, Text.splitOnce_append_cons a.spells.space_not_mem,
    Text.splitOnce_append_cons b.spells.space_not_mem, Prod.mk.injEq, Option.some.injEq] at hsplit
  obtain ⟨hword, hrest⟩ := hsplit
  obtain ⟨hbetween, htoken, -⟩ := Text.eq_of_append_eq a.blank_between a.token_ne_nil a.trimmed
    Text.allBlank_nil b.blank_between b.trimmed Text.allBlank_nil
    (congrArg (· ++ []) hrest)
  cases a
  cases b
  simp only at hbefore hword hbetween htoken hafter
  subst hbefore hword hbetween htoken hafter
  rfl

end Authorization

/-- The value of a header with the scheme and no more. -/
def IsBareScheme (value : String) : Prop :=
  ∃ before word after, Text.AllBlank before ∧ SpellsScheme word ∧ Text.AllBlank after ∧
    value = String.ofList (before ++ word ++ after)

section

variable {value : String}

theorem isBareScheme_iff : IsBareScheme value ↔ SpellsScheme (Text.trim value.toList) := by
  constructor
  · rintro ⟨before, word, after, hbefore, hword, hafter, rfl⟩
    rw [String.toList_ofList, Text.trim_append hbefore
      (Text.trimmed_of_forall hword.not_isBlank) hafter]
    exact hword
  · intro h
    obtain ⟨before, after, hbefore, hafter, heq⟩ := Text.exists_trim value.toList
    refine ⟨before, _, after, hbefore, h, hafter, ?_⟩
    rw [← heq, String.ofList_toList]

/-- With a space behind the scheme, a value holds a token. -/
theorem exists_authorization {cs rest : List Char}
    (h : Text.trim value.toList = cs ++ ' ' :: rest) (hscheme : SpellsScheme cs) :
    ∃ a : Authorization, value = a.text := by
  obtain ⟨before, after, hbefore, hafter, hvalue⟩ := Text.exists_trim value.toList
  obtain ⟨between, behind, hbetween, hbehind, hrest⟩ := Text.exists_trim rest
  have hblank : Text.AllBlank (behind ++ after) := List.forall_mem_append.mpr ⟨hbehind, hafter⟩
  refine ⟨⟨before, cs, between, Text.trim rest, behind ++ after, hbefore, hscheme, hbetween,
    trim_ne_nil_of_space h, Text.trimmed_trim rest, hblank⟩, ?_⟩
  rw [← String.toList_inj, Authorization.text, String.toList_ofList, hvalue, h]
  conv_lhs => rw [hrest]
  simp

/-! ### What the reader makes of a value -/

theorem Authorization.ofHeader_text (a : Authorization) :
    ofHeader a.text = .ok (.bearer (String.ofList a.token)) := by
  have htrim : Text.trim a.text.toList = a.word ++ ' ' :: (a.between ++ a.token) := by
    rw [a.toList_text]
    exact Text.trim_append a.blank_before a.trimmed_core a.blank_after
  have htoken : Text.trim (a.between ++ a.token) = a.token := by
    rw [← List.append_nil (a.between ++ a.token)]
    exact Text.trim_append a.blank_between a.trimmed Text.allBlank_nil
  rw [ofHeader_of_space htrim a.spells.space_not_mem, if_pos a.spells, htoken]

theorem ofHeader_of_isBareScheme (h : IsBareScheme value) :
    ofHeader value = .error .emptyToken := by
  have hscheme := isBareScheme_iff.mp h
  rw [ofHeader_of_no_space rfl hscheme.space_not_mem, if_pos hscheme]

theorem ofHeader_of_other (hbare : ¬IsBareScheme value)
    (hnone : ∀ a : Authorization, value ≠ a.text) : ofHeader value = .error .notBearer := by
  rw [isBareScheme_iff] at hbare
  by_cases hspace : ' ' ∈ Text.trim value.toList
  · obtain ⟨cs, rest, hcore, hnot⟩ := List.eq_append_cons_of_mem hspace
    rw [ofHeader_of_space hcore hnot]
    refine if_neg fun hscheme => ?_
    obtain ⟨a, ha⟩ := exists_authorization hcore hscheme
    exact hnone a ha
  · rw [ofHeader_of_no_space rfl hspace, if_neg hbare]

/-- The reader accepts the values that hold a token, and answers with the token. -/
theorem ofHeader_eq_ok_iff {c : Credential} :
    ofHeader value = .ok c ↔
      ∃ a : Authorization, value = a.text ∧ c = .bearer (String.ofList a.token) := by
  constructor
  · intro h
    by_cases hvalue : ∃ a : Authorization, value = a.text
    · obtain ⟨a, rfl⟩ := hvalue
      rw [a.ofHeader_text] at h
      exact ⟨a, rfl, (Except.ok.inj h).symm⟩
    · by_cases hbare : IsBareScheme value
      · rw [ofHeader_of_isBareScheme hbare] at h
        cases h
      · rw [ofHeader_of_other hbare (not_exists.mp hvalue)] at h
        cases h
  · rintro ⟨a, rfl, rfl⟩
    exact a.ofHeader_text

/-- What was read is read again from a header with nothing but the scheme and the token. -/
theorem ofHeader_plain {token : String} (h : ofHeader value = .ok (.bearer token)) :
    ofHeader ("Bearer " ++ token) = .ok (.bearer token) := by
  obtain ⟨a, -, htoken⟩ := ofHeader_eq_ok_iff.mp h
  obtain rfl := Credential.bearer.inj htoken
  rw [← Authorization.text_plain a.token a.token_ne_nil a.trimmed]
  exact (Authorization.plain a.token a.token_ne_nil a.trimmed).ofHeader_text

end

end Credential

end TokenAuthority

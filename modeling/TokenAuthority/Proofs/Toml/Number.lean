import TokenAuthority.Proofs.Text.Split
import TokenAuthority.Proofs.Toml.Grammar
import Mathlib.Tactic.Common

/-!
# Reading whole numbers of a document

A whole number is read from each of its forms where a value can end behind it, and taken for
nothing else: it goes on neither like a date or a time nor like a fraction or an exponent.
-/

namespace TokenAuthority.Toml

theorem forall_mem_of_all {P : Char → Prop} [DecidablePred P] {cs : List Char}
    (h : cs.all fun c => P c) : ∀ c ∈ cs, P c := by
  simpa using h

/-- The characters that blanks, comments and ends of lines begin with. -/
def valueEnds : List Char := [' ', '\t', '#', '\n', '\r']

/-- What may stand behind a value: a blank, a comment, the end of the line or of the document. -/
def EndsValue (rest : List Char) : Prop := ∀ c ∈ rest.head?, c ∈ valueEnds

theorem EndsValue.head {rest : List Char} (h : EndsValue rest) {P : Char → Prop} [DecidablePred P]
    (hP : valueEnds.all fun c => P c) : ∀ c ∈ rest.head?, P c :=
  fun c hc => forall_mem_of_all hP c (h c hc)

/-! ### Digits -/

theorem span_append {p : Char → Bool} {cs rest : List Char} (hcs : ∀ c ∈ cs, p c)
    (hrest : ∀ c ∈ rest.head?, p c = false) :
    (cs ++ rest).takeWhile p = cs ∧ (cs ++ rest).dropWhile p = rest := by
  rw [List.takeWhile_append_of_pos hcs, List.dropWhile_append_of_pos hcs]
  cases rest with
  | nil => simp
  | cons c rest =>
      have hc := hrest c rfl
      simp [hc]

section

variable {isDigit : Char → Bool} {ds cs rest : List Char}

theorem IsDigits.mem (h : IsDigits isDigit ds cs) : ∀ c ∈ cs, isDigit c ∨ c = '_' := by
  induction h with
  | last digit => simp [digit]
  | next digit _ ih =>
      rw [List.forall_mem_cons]
      exact ⟨Or.inl digit, ih⟩
  | spaced digit _ ih =>
      rw [List.forall_mem_cons, List.forall_mem_cons]
      exact ⟨Or.inl digit, Or.inr rfl, ih⟩

/-- Between the underscores there are digits, and all digits are there. -/
theorem IsDigits.split_eq (h : IsDigits isDigit ds cs) (hspace : isDigit '_' = false) :
    ∃ part parts, Text.split '_' cs = part :: parts ∧ (∀ p ∈ part :: parts, p ≠ []) ∧
      (part :: parts).flatten = ds := by
  have hne : ∀ {d}, isDigit d → d ≠ '_' := by
    rintro d hd rfl
    rw [hspace] at hd
    cases hd
  induction h with
  | @last d digit =>
      refine ⟨[d], [], ?_, by simp, rfl⟩
      rw [Text.split_cons, if_neg (hne digit)]
      rfl
  | @next d ds cs digit _ ih =>
      obtain ⟨part, parts, hsplit, hfull, hall⟩ := ih
      refine ⟨d :: part, parts, ?_, ?_, ?_⟩
      · rw [Text.split_cons, if_neg (hne digit), hsplit]
        rfl
      · rw [List.forall_mem_cons] at hfull ⊢
        exact ⟨List.cons_ne_nil d part, hfull.2⟩
      · rw [List.flatten_cons] at hall ⊢
        rw [List.cons_append, hall]
  | @spaced d ds cs digit _ ih =>
      obtain ⟨part, parts, hsplit, hfull, hall⟩ := ih
      refine ⟨[d], part :: parts, ?_, ?_, ?_⟩
      · rw [Text.split_cons, if_neg (hne digit), Text.split_cons, if_pos rfl, hsplit]
        rfl
      · rw [List.forall_mem_cons]
        exact ⟨List.cons_ne_nil d [], hfull⟩
      · rw [List.flatten_cons, hall]
        rfl

theorem digits?_of_isDigits (h : IsDigits isDigit ds cs) (hspace : isDigit '_' = false)
    (hrest : ∀ c ∈ rest.head?, isDigit c = false ∧ c ≠ '_') :
    digits? isDigit (cs ++ rest) = some (ds, rest) := by
  have hrun : ∀ c ∈ cs, (isDigit c || c == '_') = true := fun c hc => by simpa using h.mem c hc
  have hstop : ∀ c ∈ rest.head?, (isDigit c || c == '_') = false :=
    fun c hc => by simpa using hrest c hc
  obtain ⟨htake, hdrop⟩ := span_append hrun hstop
  obtain ⟨part, parts, hsplit, hfull, hall⟩ := h.split_eq hspace
  have hnonempty : ((part :: parts).all fun p => p ≠ []) = true := by
    rw [List.all_eq_true]
    exact fun p hp => decide_eq_true (hfull p hp)
  rw [digits?]
  rw [htake, hdrop, hsplit, if_pos hnonempty, hall]

theorem IsDigits.exists_cons (h : IsDigits isDigit ds cs) :
    ∃ d ds' cs', ds = d :: ds' ∧ cs = d :: cs' ∧ isDigit d := by
  cases h with
  | @last d digit => exact ⟨d, [], [], rfl, rfl, digit⟩
  | @next d ds cs digit _ => exact ⟨d, ds, cs, rfl, rfl, digit⟩
  | @spaced d ds cs digit _ => exact ⟨d, ds, '_' :: cs, rfl, rfl, digit⟩

/-- A zero stands alone. -/
theorem IsDecimal.exists_cons (h : IsDecimal ds cs) :
    ∃ d tail, cs = d :: tail ∧ d.isDigit ∧ (d = '0' → ds = ['0'] ∧ tail = []) := by
  obtain ⟨digits, leading⟩ := h
  obtain ⟨d, ds', tail, rfl, rfl, digit⟩ := digits.exists_cons
  refine ⟨d, tail, rfl, digit, ?_⟩
  rintro rfl
  cases leading rfl
  cases digits with
  | last _ => exact ⟨rfl, rfl⟩
  | next _ behind => cases behind
  | spaced _ behind => cases behind

theorem decimal?_of_isDecimal (h : IsDecimal ds cs) (hrest : EndsValue rest) :
    decimal? (cs ++ rest) = some (ds, rest) := by
  obtain ⟨d, tail, hcs, digit, hzero⟩ := h.exists_cons
  by_cases hd : d = '0'
  · obtain ⟨rfl, rfl⟩ := hzero hd
    rw [hcs, hd, List.singleton_append, decimal?]
    rintro behind rfl
    have hhead := hrest '_' rfl
    revert hhead
    decide
  · have hread : digits? Char.isDigit (cs ++ rest) = some (ds, rest) :=
      digits?_of_isDigits h.1 (by decide) (hrest.head (by decide))
    rw [← hread, hcs, List.cons_append, decimal?]
    · intro _ heq
      exact hd (List.cons.inj heq).1
    · intro _ heq
      exact hd (List.cons.inj heq).1

end

/-! ### Other readings of a number -/

section

variable {n : Int} {cs rest : List Char}

theorem exists_of_fixed? {width low high k : Nat} {behind : List Char}
    (h : fixed? width low high cs = some (k, behind)) :
    ∃ ds, ds.length = width ∧ (∀ d ∈ ds, d.isDigit) ∧ cs = ds ++ behind := by
  rw [fixed?] at h
  dsimp only at h
  split_ifs at h with hdigits _
  cases h
  exact ⟨cs.take width, hdigits.1, List.all_eq_true.mp hdigits.2, (List.take_append_drop ..).symm⟩

theorem eq_cons_of_char? {c : Char} {behind : List Char} (h : char? c cs = some behind) :
    cs = c :: behind := by
  cases cs with
  | nil => cases h
  | cons d cs =>
      rw [char?] at h
      split_ifs at h with hd
      cases h
      rw [hd]

/-- A date or a time begins with digits and a mark behind them. -/
theorem exists_of_dateTime? {behind : List Char} (h : dateTime? cs = some behind) :
    ∃ ds c others, ds ≠ [] ∧ (∀ d ∈ ds, d.isDigit) ∧ (c = '-' ∨ c = ':') ∧
      cs = ds ++ c :: others := by
  have hmarked : ∀ {width low high k c others more}, 0 < width →
      fixed? width low high cs = some (k, others) → char? c others = some more →
      (c = '-' ∨ c = ':') → ∃ ds c others, ds ≠ [] ∧ (∀ d ∈ ds, d.isDigit) ∧
        (c = '-' ∨ c = ':') ∧ cs = ds ++ c :: others := by
    intro width low high k c others more hwidth hfixed hchar hc
    obtain ⟨ds, hlength, hdigits, rfl⟩ := exists_of_fixed? hfixed
    refine ⟨ds, c, more, ?_, hdigits, hc, by rw [eq_cons_of_char? hchar]⟩
    rintro rfl
    rw [List.length_nil] at hlength
    omega
  rw [dateTime?] at h
  cases hdate : date? cs with
  | none =>
      rw [hdate] at h
      obtain ⟨_, hfixed, h⟩ := Option.bind_eq_some_iff.mp h
      obtain ⟨_, hchar, -⟩ := Option.bind_eq_some_iff.mp h
      exact hmarked (by decide) hfixed hchar (Or.inr rfl)
  | some _ =>
      obtain ⟨_, hfixed, hdate⟩ := Option.bind_eq_some_iff.mp hdate
      obtain ⟨_, hchar, -⟩ := Option.bind_eq_some_iff.mp hdate
      exact hmarked (by decide) hfixed hchar (Or.inl rfl)

theorem dateTime?_eq_none (hcs : ∀ c ∈ cs.tail, c ≠ '-' ∧ c ≠ ':') (hrest : EndsValue rest) :
    dateTime? (cs ++ rest) = none := by
  rw [Option.eq_none_iff_forall_ne_some]
  intro behind h
  obtain ⟨ds, c, others, hne, hdigits, hc, heq⟩ := exists_of_dateTime? h
  have hends : ∀ d ∈ rest.head?, ¬d.isDigit ∧ d ≠ '-' ∧ d ≠ ':' := hrest.head (by decide)
  -- The mark stands behind the number or in it, and it is neither its end nor its sign.
  obtain ⟨more, rfl, rfl⟩ | ⟨more, rfl, hmore⟩ := List.append_eq_append_iff.mp heq
  · cases more with
    | nil =>
        have hhead := hends c rfl
        tauto
    | cons d more => exact (hends d rfl).1 (hdigits d (by simp))
  · cases more with
    | nil =>
        have hhead := hends c (by rw [← List.nil_append rest, ← hmore]; rfl)
        tauto
    | cons d more =>
        cases hmore
        obtain ⟨first, ds, rfl⟩ := List.exists_cons_of_ne_nil hne
        have hmark := hcs c (by simp)
        tauto

theorem float?_eq_none {ds behind : List Char} (h : decimal? (sign cs).2 = some (ds, behind))
    (hfraction : fraction? behind = none) (hexponent : exponent? behind = none) :
    float? cs = none := by
  rw [float?]
  dsimp only
  rw [h]
  simp [hfraction, hexponent]

theorem special?_eq_none (h : ∀ c ∈ (sign cs).2.head?, c ≠ 'i' ∧ c ≠ 'n') :
    special? cs = none := by
  rw [special?]
  split
  · rename_i heq
    exact absurd rfl (h 'i' (by rw [heq]; rfl)).1
  · rename_i heq
    exact absurd rfl (h 'n' (by rw [heq]; rfl)).2
  · rfl

theorem fraction?_eq_none (h : ∀ c ∈ cs.head?, c ≠ '.') : fraction? cs = none := by
  rw [fraction?]
  rintro behind rfl
  exact h '.' rfl rfl

theorem exponent?_eq_none (h : ∀ c ∈ cs.head?, c ≠ 'e' ∧ c ≠ 'E') : exponent? cs = none := by
  cases cs with
  | nil => rfl
  | cons c cs => exact if_neg (not_or.mpr (h c rfl))

end

/-! ### Whole numbers -/

section

variable {n : Int} {cs rest : List Char}

/-- What a number is like for a reader of values: how it begins, what its characters are, and
that it is read as a whole number and not as another. -/
structure ReadsWhole (n : Int) (cs rest : List Char) : Prop where
  head : ∀ c ∈ (cs ++ rest).head?, c.isDigit ∨ c = '+' ∨ c = '-'
  tail : ∀ c ∈ cs.tail, c ≠ '-' ∧ c ≠ ':'
  notFloat : float? (cs ++ rest) = none
  notSpecial : special? (cs ++ rest) = none
  whole : whole? (cs ++ rest) = some (n, rest)

theorem IsBase.digit {letter : Char} {base : Nat} {isDigit : Char → Bool}
    (h : IsBase letter base isDigit) :
    isDigit '_' = false ∧ isDigit '-' = false ∧ isDigit ':' = false ∧
      valueEnds.all fun c => isDigit c = false := by
  cases h <;> decide

theorem IsBase.letter {letter : Char} {base : Nat} {isDigit : Char → Bool}
    (h : IsBase letter base isDigit) :
    letter ≠ '_' ∧ letter ≠ '.' ∧ letter ≠ 'e' ∧ letter ≠ 'E' ∧ letter ≠ '-' ∧ letter ≠ ':' := by
  cases h <;> decide

theorem sign_of_isDigit {c : Char} (h : c.isDigit) (cs : List Char) :
    sign (c :: cs) = (false, c :: cs) := by
  rw [sign]
  · rintro _ ⟨⟩
    revert h
    decide
  · rintro _ ⟨⟩
    revert h
    decide

theorem whole?_of_decimal? {ds : List Char}
    (hbase : ∀ letter others, cs = '0' :: letter :: others → letter ∉ ['x', 'o', 'b'])
    (h : decimal? (sign cs).2 = some (ds, rest)) :
    whole? cs = some (if (sign cs).1 then -(ofDigits 10 ds : Int) else ofDigits 10 ds, rest) := by
  rw [whole?]
  · dsimp only
    rw [h]
    rfl
  · intro others heq
    exact hbase 'x' others heq (by decide)
  · intro others heq
    exact hbase 'o' others heq (by decide)
  · intro others heq
    exact hbase 'b' others heq (by decide)

/-- The signs, and whether each is minus. -/
def signs : List (List Char × Bool) := [([], false), (['+'], false), (['-'], true)]

theorem IsDecimal.ne_mark {ds : List Char} (h : IsDecimal ds cs) :
    ∀ c ∈ cs, c ≠ '-' ∧ c ≠ ':' := by
  intro c hc
  obtain hdigit | rfl := h.1.mem c hc
  · constructor <;>
      (rintro rfl; revert hdigit; decide)
  · decide

/-- A zero stands alone, so no letter of a base is behind it. -/
theorem IsDecimal.not_base {ds : List Char} (h : IsDecimal ds cs) (hrest : EndsValue rest)
    {letter : Char} {others : List Char} (heq : cs ++ rest = '0' :: letter :: others) :
    letter ∉ ['x', 'o', 'b'] := by
  obtain ⟨d, tail, rfl, -, hzero⟩ := h.exists_cons
  obtain ⟨rfl, hbehind⟩ := List.cons.inj heq
  obtain ⟨-, rfl⟩ := hzero rfl
  change rest = letter :: others at hbehind
  have hletter : ∀ c ∈ rest.head?, c ∉ ['x', 'o', 'b'] := hrest.head (by decide)
  exact hletter letter (by rw [hbehind]; rfl)

/-- A sign is told apart from the digit behind it, and begins no number of another base. -/
theorem signed_cons {mark : List Char} {minus : Bool} {d : Char} (hmark : (mark, minus) ∈ signs)
    (digit : d.isDigit) (behind : List Char) :
    sign (mark ++ d :: behind) = (minus, d :: behind) ∧
      (∀ c ∈ (mark ++ d :: behind).head?, c.isDigit ∨ c = '+' ∨ c = '-') ∧
      (∀ c ∈ (mark ++ d :: behind).tail, c ∈ d :: behind) ∧
      ∀ letter others, mark ++ d :: behind = '0' :: letter :: others →
        d :: behind = '0' :: letter :: others := by
  simp only [signs, List.mem_cons, Prod.mk.injEq, List.not_mem_nil, or_false] at hmark
  obtain ⟨rfl, rfl⟩ | ⟨rfl, rfl⟩ | ⟨rfl, rfl⟩ := hmark
  · refine ⟨sign_of_isDigit digit _, ?_, fun c hc => List.mem_of_mem_tail hc, fun _ _ h => h⟩
    rintro c ⟨⟩
    exact Or.inl digit
  · refine ⟨rfl, ?_, fun c hc => hc, fun _ _ h => by cases h⟩
    rintro c ⟨⟩
    exact Or.inr (Or.inl rfl)
  · refine ⟨rfl, ?_, fun c hc => hc, fun _ _ h => by cases h⟩
    rintro c ⟨⟩
    exact Or.inr (Or.inr rfl)

theorem readsWhole_of_isDecimal {ds : List Char} (mark : List Char) (minus : Bool)
    (h : IsDecimal ds cs) (hmark : (mark, minus) ∈ signs) (hrest : EndsValue rest) :
    ReadsWhole (if minus then -(ofDigits 10 ds : Int) else ofDigits 10 ds) (mark ++ cs) rest := by
  have hread := decimal?_of_isDecimal h hrest
  have htail := h.ne_mark
  have hbase : ∀ letter others, cs ++ rest = '0' :: letter :: others → letter ∉ ['x', 'o', 'b'] :=
    fun _ _ => h.not_base hrest
  obtain ⟨d, tail, rfl, digit, -⟩ := h.exists_cons
  have hd : d ≠ 'i' ∧ d ≠ 'n' := by
    constructor <;>
      (rintro rfl; revert digit; decide)
  obtain ⟨-, -, hmem, -⟩ := signed_cons hmark digit tail
  obtain ⟨hsign, hhead, -, hunbased⟩ := signed_cons hmark digit (tail ++ rest)
  rw [← List.cons_append, ← List.append_assoc] at hsign hhead hunbased
  have hdecimal : decimal? (sign (mark ++ d :: tail ++ rest)).2 = some (ds, rest) := by
    rw [hsign]
    exact hread
  refine ⟨hhead, fun c hc => htail c (hmem c hc), ?_, ?_, ?_⟩
  · exact float?_eq_none hdecimal (fraction?_eq_none (hrest.head (by decide)))
      (exponent?_eq_none (hrest.head (by decide)))
  · refine special?_eq_none ?_
    rw [hsign]
    rintro c ⟨⟩
    exact hd
  · rw [whole?_of_decimal? (fun letter others heq => hbase _ _ (hunbased letter others heq))
      hdecimal, hsign]

theorem whole?_of_isBase {letter : Char} {base : Nat} {isDigit : Char → Bool} {ds : List Char}
    (h : IsBase letter base isDigit) (hread : digits? isDigit cs = some (ds, rest)) :
    whole? ('0' :: letter :: cs) = some ((ofDigits base ds : Int), rest) := by
  cases h <;>
    (change digits? _ cs >>= _ = _; rw [hread]; rfl)

theorem readsWhole_of_isBase {letter : Char} {base : Nat} {isDigit : Char → Bool} {ds : List Char}
    (h : IsBase letter base isDigit) (hds : IsDigits isDigit ds cs) (hrest : EndsValue rest) :
    ReadsWhole (ofDigits base ds) ('0' :: letter :: cs) rest := by
  obtain ⟨hspace, hminus, hcolon, hends⟩ := h.digit
  obtain ⟨hunderscore, hpoint, hsmall, hcapital, hdash, hmark⟩ := h.letter
  have hstop : ∀ c ∈ rest.head?, isDigit c = false := hrest.head hends
  have hplain : ∀ c ∈ rest.head?, c ≠ '_' := hrest.head (by decide)
  have hread : digits? isDigit (cs ++ rest) = some (ds, rest) :=
    digits?_of_isDigits hds hspace fun c hc => ⟨hstop c hc, hplain c hc⟩
  have hdecimal :
      decimal? ('0' :: letter :: (cs ++ rest)) = some (['0'], letter :: (cs ++ rest)) := by
    rw [decimal?]
    intro _ heq
    exact hunderscore (List.cons.inj heq).1
  refine ⟨?_, ?_, ?_, ?_, ?_⟩
  · rintro c ⟨⟩
    exact Or.inl (by decide)
  · rw [List.tail_cons, List.forall_mem_cons]
    refine ⟨⟨hdash, hmark⟩, fun c hc => ?_⟩
    obtain hdigit | rfl := hds.mem c hc
    · constructor
      · rintro rfl
        rw [hminus] at hdigit
        cases hdigit
      · rintro rfl
        rw [hcolon] at hdigit
        cases hdigit
    · decide
  · refine float?_eq_none hdecimal (fraction?_eq_none ?_) (exponent?_eq_none ?_)
    · rintro c ⟨⟩
      exact hpoint
    · rintro c ⟨⟩
      exact ⟨hsmall, hcapital⟩
  · refine special?_eq_none ?_
    rintro c ⟨⟩
    decide
  · exact whole?_of_isBase h hread

theorem readsWhole_of_isInteger (h : IsInteger n cs) (hrest : EndsValue rest) :
    ReadsWhole n cs rest := by
  cases h with
  | positive signed digits =>
      obtain rfl | rfl := signed
      · exact readsWhole_of_isDecimal [] false digits (by decide) hrest
      · exact readsWhole_of_isDecimal ['+'] false digits (by decide) hrest
  | negative digits =>
      exact readsWhole_of_isDecimal ['-'] true digits (by decide) hrest
  | based lettered digits => exact readsWhole_of_isBase lettered digits hrest

theorem integer?_of_isInteger (h : IsInteger n cs) (hword : IsWord n) (hrest : EndsValue rest) :
    integer? (cs ++ rest) = some (n, rest) := by
  have hbound : -(1 <<< 63 : Nat) ≤ n ∧ n < (1 <<< 63 : Nat) := hword
  rw [integer?, (readsWhole_of_isInteger h hrest).whole]
  exact if_pos hbound

end

end TokenAuthority.Toml

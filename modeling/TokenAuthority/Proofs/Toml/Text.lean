import TokenAuthority.Proofs.Toml.Grammar
import Mathlib.Tactic.Common

/-!
# Reading texts of a document

A text between quotes or apostrophes, on one line or on several, is read from each of its
forms, character by character: a plain character stands for itself, an escape for one character,
and on several lines one or two quotes that do not close the text belong to it.
-/

namespace TokenAuthority.Toml

/-! ### Escapes -/

theorem value?_of_isHexDigit {n : Nat} {c : Char} (h : IsHexDigit n c) :
    Hex.value? c = some n := by
  have hlower : ∀ n < 16, Hex.value? (Hex.digit n) = some n := by decide
  have hupper : ∀ n < 16, Hex.value? (Hex.digit n).toUpper = some n := by decide
  obtain ⟨hn, rfl | rfl⟩ := h
  · exact hlower n hn
  · exact hupper n hn

theorem mapM_value?_of_isHex {n : Nat} {ds : List Char} (h : IsHex n ds) :
    ∃ values, ds.mapM Hex.value? = some values ∧
      values.foldl (fun n d => n * 16 + d) 0 = n := by
  induction h with
  | nil => exact ⟨[], rfl, rfl⟩
  | @append n d ds c front last ih =>
      obtain ⟨values, hvalues, hn⟩ := ih
      refine ⟨values ++ [d], ?_, ?_⟩
      · rw [List.mapM_append, hvalues]
        simp [value?_of_isHexDigit last]
      · rw [List.foldl_append, hn]
        rfl

theorem codePoint?_of_isHex {c : Char} {ds : List Char} (h : IsHex c.toNat ds) :
    codePoint? ds = some c := by
  obtain ⟨values, hvalues, hn⟩ := mapM_value?_of_isHex h
  refine Option.bind_eq_some_iff.mpr ⟨values, hvalues, ?_⟩
  dsimp only
  generalize List.foldl _ 0 values = n at hn
  subst hn
  exact dif_pos c.valid

variable {c : Char} {letters : List Char}

theorem escape?_of_isEscape (h : IsEscape c letters) (rest : List Char) :
    escape? (letters ++ rest) = some (c, rest) := by
  cases h with
  | @short letter listed =>
      simp only [shortEscapes, List.mem_cons, Prod.mk.injEq, List.not_mem_nil, or_false] at listed
      obtain ⟨rfl, rfl⟩ | ⟨rfl, rfl⟩ | ⟨rfl, rfl⟩ | ⟨rfl, rfl⟩ | ⟨rfl, rfl⟩ | ⟨rfl, rfl⟩ |
        ⟨rfl, rfl⟩ := listed <;> rfl
  | @four ds number length =>
      have htake : (ds ++ rest).take 4 = ds := List.take_left' length
      have hdrop : (ds ++ rest).drop 4 = rest := List.drop_left' length
      have hlong : ¬(ds ++ rest).length < 4 := by
        rw [List.length_append]
        omega
      rw [List.cons_append, escape?, if_neg hlong, htake, hdrop, codePoint?_of_isHex number]
      rfl
  | @eight ds number length =>
      have htake : (ds ++ rest).take 8 = ds := List.take_left' length
      have hdrop : (ds ++ rest).drop 8 = rest := List.drop_left' length
      have hlong : ¬(ds ++ rest).length < 8 := by
        rw [List.length_append]
        omega
      rw [List.cons_append, escape?, if_neg hlong, htake, hdrop, codePoint?_of_isHex number]
      rfl

/-- What an escape begins with is neither blank nor the end of a line. -/
theorem IsEscape.exists_cons (h : IsEscape c letters) :
    ∃ first others, letters = first :: others ∧ ¬isSpace first ∧ first ≠ '\n' ∧ first ≠ '\r' := by
  cases h with
  | @short letter listed =>
      have hvisible : ∀ e ∈ shortEscapes, ¬isSpace e.1 ∧ e.1 ≠ '\n' ∧ e.1 ≠ '\r' := by decide
      exact ⟨letter, [], rfl, hvisible _ listed⟩
  | @four ds _ _ => exact ⟨'u', ds, rfl, by decide⟩
  | @eight ds _ _ => exact ⟨'U', ds, rfl, by decide⟩

theorem not_newline_of_isTextChar (h : isTextChar c) : c ≠ '\n' ∧ c ≠ '\r' := by
  constructor <;>
    (rintro rfl; exact absurd h (by decide))

/-! ### On one line -/

/-- Whether a character stands for itself in a text with escapes. -/
def isBasicPlain (c : Char) : Bool := isTextChar c && c != '"' && c != '\\'

theorem basicBody_succ (fuel : Nat) (cs : List Char) :
    basicBody (fuel + 1) cs =
      match cs.dropWhile isBasicPlain with
      | '"' :: rest => some (cs.takeWhile isBasicPlain, rest)
      | '\\' :: rest => do
        let (c, rest) ← escape? rest
        let (others, rest) ← basicBody fuel rest
        return (cs.takeWhile isBasicPlain ++ c :: others, rest)
      | _ => none := rfl

theorem basicBody_plain (fuel : Nat) {c : Char} (hc : isBasicPlain c) (cs : List Char) :
    basicBody (fuel + 1) (c :: cs) =
      (basicBody (fuel + 1) cs).map fun (s, rest) => (c :: s, rest) := by
  rw [basicBody_succ, basicBody_succ, List.dropWhile_cons_of_pos hc, List.takeWhile_cons_of_pos hc]
  split
  · rfl
  · rename_i rest _
    cases escape? rest with
    | none => rfl
    | some found =>
        simp only [Option.bind_eq_bind, Option.bind_some]
        cases basicBody fuel found.2 <;> rfl
  · rfl

theorem basicBody_escape (fuel : Nat) {c : Char} {form cs : List Char}
    (h : escape? form = some (c, cs)) :
    basicBody (fuel + 1) ('\\' :: form) =
      (basicBody fuel cs).map fun (s, rest) => (c :: s, rest) := by
  have hplain : ¬isBasicPlain '\\' := by decide
  rw [basicBody_succ, List.dropWhile_cons_of_neg hplain, List.takeWhile_cons_of_neg hplain]
  simp only [h, Option.bind_eq_bind, Option.bind_some, List.nil_append]
  cases basicBody fuel cs <;> rfl

theorem basicBody_quote (fuel : Nat) (rest : List Char) :
    basicBody (fuel + 1) ('"' :: rest) = some ([], rest) := by
  have hplain : ¬isBasicPlain '"' := by decide
  rw [basicBody_succ, List.dropWhile_cons_of_neg hplain, List.takeWhile_cons_of_neg hplain]
  rfl

/-- A text on one line is read up to its closing quote. -/
theorem basicBody_of_isBasic {cs form : List Char} (h : IsBasic cs form) (rest : List Char)
    {fuel : Nat} (hfuel : form.length < fuel) :
    basicBody fuel (form ++ '"' :: rest) = some (cs, rest) := by
  obtain ⟨fuel, rfl⟩ : ∃ n, fuel = n + 1 := ⟨fuel - 1, by omega⟩
  induction h generalizing fuel with
  | nil => exact basicBody_quote fuel rest
  | @plain c cs form text quote backslash _ ih =>
      have hplain : isBasicPlain c := by simp [isBasicPlain, text, quote, backslash]
      rw [List.length_cons] at hfuel
      rw [List.cons_append, basicBody_plain fuel hplain, ih fuel (by omega)]
      rfl
  | @escaped c cs letters form escape _ ih =>
      rw [List.length_cons, List.length_append] at hfuel
      obtain ⟨fuel, rfl⟩ : ∃ n, fuel = n + 1 := ⟨fuel - 1, by omega⟩
      rw [List.cons_append, List.append_assoc,
        basicBody_escape (fuel + 1) (escape?_of_isEscape escape _), ih fuel (by omega)]
      rfl

/-- Whether a character may stand in a text between apostrophes. -/
def isLiteralPlain (c : Char) : Bool := isTextChar c && c != '\''

theorem literalBody_eq (cs : List Char) :
    literalBody cs =
      match cs.dropWhile isLiteralPlain with
      | '\'' :: rest => some (cs.takeWhile isLiteralPlain, rest)
      | _ => none := rfl

/-- A text without escapes is read up to its closing apostrophe. -/
theorem literalBody_append {cs : List Char} (hcs : ∀ c ∈ cs, isLiteralPlain c)
    (rest : List Char) : literalBody (cs ++ '\'' :: rest) = some (cs, rest) := by
  have hclose : ¬isLiteralPlain '\'' := by decide
  rw [literalBody_eq, List.dropWhile_append_of_pos hcs, List.takeWhile_append_of_pos hcs,
    List.dropWhile_cons_of_neg hclose, List.takeWhile_cons_of_neg hclose, List.append_nil]
  rfl

/-! ### On several lines -/

/-- Whether a character stands for itself in a text of several lines. -/
def isLinesPlain (escapes : Bool) (q c : Char) : Bool :=
  isTextChar c && c != q && !(escapes && c == '\\')

section

variable {escapes : Bool} {q : Char} (fuel : Nat)

/-- What a text of several lines is, given the plain characters in front of it. -/
def behindPlain (escapes : Bool) (q : Char) (fuel : Nat) (plain : List Char) :
    List Char → Option (List Char × List Char)
  | '\n' :: rest => do
    let (others, rest) ← linesBody escapes q fuel rest
    return (plain ++ '\n' :: others, rest)
  | '\r' :: '\n' :: rest => do
    let (others, rest) ← linesBody escapes q fuel rest
    return (plain ++ '\n' :: others, rest)
  | c :: rest =>
    if c = q then
      let (n, behind) := quotes q (c :: rest)
      if n < 3 then do
        let (others, rest) ← linesBody escapes q fuel behind
        return (plain ++ List.replicate n q ++ others, rest)
      else if n ≤ 5 then some (plain ++ List.replicate (n - 3) q, behind)
      else some (plain ++ [q, q], List.replicate (n - 5) q ++ behind)
    else if escapes ∧ c = '\\' then
      match continued? rest with
      | some rest => do
        let (others, rest) ← linesBody escapes q fuel rest
        return (plain ++ others, rest)
      | none => do
        let (c, rest) ← escape? rest
        let (others, rest) ← linesBody escapes q fuel rest
        return (plain ++ c :: others, rest)
    else none
  | [] => none

theorem linesBody_succ (cs : List Char) :
    linesBody escapes q (fuel + 1) cs =
      behindPlain escapes q fuel (cs.takeWhile (isLinesPlain escapes q))
        (cs.dropWhile (isLinesPlain escapes q)) := rfl

theorem behindPlain_cons (c : Char) (plain cs : List Char) :
    behindPlain escapes q fuel (c :: plain) cs =
      (behindPlain escapes q fuel plain cs).map fun (s, rest) => (c :: s, rest) := by
  unfold behindPlain
  split
  · rename_i rest
    cases linesBody escapes q fuel rest <;> rfl
  · rename_i rest
    cases linesBody escapes q fuel rest <;> rfl
  · rename_i d rest _ _
    split_ifs
    · dsimp only
      split_ifs
      · cases linesBody escapes q fuel (quotes q (d :: rest)).2 <;> rfl
      · rfl
      · rfl
    · split
      · rename_i behind _
        cases linesBody escapes q fuel behind <;> rfl
      · cases escape? rest with
        | none => rfl
        | some found =>
            simp only [Option.bind_eq_bind, Option.bind_some]
            cases linesBody escapes q fuel found.2 <;> rfl
    · rfl
  · rfl

theorem linesBody_plain {c : Char} (hc : isLinesPlain escapes q c) (cs : List Char) :
    linesBody escapes q (fuel + 1) (c :: cs) =
      (linesBody escapes q (fuel + 1) cs).map fun (s, rest) => (c :: s, rest) := by
  rw [linesBody_succ, linesBody_succ, List.dropWhile_cons_of_pos hc, List.takeWhile_cons_of_pos hc,
    behindPlain_cons]

theorem linesBody_of_not_plain {c : Char} (hc : ¬isLinesPlain escapes q c) (cs : List Char) :
    linesBody escapes q (fuel + 1) (c :: cs) = behindPlain escapes q fuel [] (c :: cs) := by
  rw [linesBody_succ, List.dropWhile_cons_of_neg hc, List.takeWhile_cons_of_neg hc]

theorem linesBody_newline (cs : List Char) :
    linesBody escapes q (fuel + 1) ('\n' :: cs) =
      (linesBody escapes q fuel cs).map fun (s, rest) => ('\n' :: s, rest) := by
  have hplain : ¬isLinesPlain escapes q '\n' := by simp [isLinesPlain, isTextChar, isCommentChar]
  rw [linesBody_of_not_plain fuel hplain]
  change (linesBody escapes q fuel cs >>= _) = _
  cases linesBody escapes q fuel cs <;> rfl

theorem linesBody_returnFeed (cs : List Char) :
    linesBody escapes q (fuel + 1) ('\r' :: '\n' :: cs) =
      (linesBody escapes q fuel cs).map fun (s, rest) => ('\n' :: s, rest) := by
  have hplain : ¬isLinesPlain escapes q '\r' := by simp [isLinesPlain, isTextChar, isCommentChar]
  rw [linesBody_of_not_plain fuel hplain]
  change (linesBody escapes q fuel cs >>= _) = _
  cases linesBody escapes q fuel cs <;> rfl

theorem linesBody_escape {c first : Char} {form cs : List Char} (hq : q ≠ '\\')
    (hvisible : ¬isSpace first ∧ first ≠ '\n' ∧ first ≠ '\r')
    (h : escape? (first :: form) = some (c, cs)) :
    linesBody true q (fuel + 1) ('\\' :: first :: form) =
      (linesBody true q fuel cs).map fun (s, rest) => (c :: s, rest) := by
  have hplain : ¬isLinesPlain true q '\\' := by simp [isLinesPlain]
  have hcontinued : continued? (first :: form) = none := by
    have hskip : skipSpace (first :: form) = first :: form :=
      List.dropWhile_cons_of_neg hvisible.1
    rw [continued?, hskip, newline?]
    · rfl
    · intro rest heq
      exact hvisible.2.1 (List.cons.inj heq).1
    · intro rest heq
      exact hvisible.2.2 (List.cons.inj heq).1
  rw [linesBody_of_not_plain fuel hplain, behindPlain]
  · rw [if_neg (Ne.symm hq), if_pos ⟨rfl, rfl⟩, hcontinued]
    simp only [h, Option.bind_eq_bind, Option.bind_some]
    cases linesBody true q fuel cs <;> rfl
  · intro heq
    cases heq
  · intro rest heq
    cases heq

/-- A backslash takes the end of its line with it, and all blanks behind that. -/
theorem linesBody_continued {form cs : List Char} (hq : q ≠ '\\')
    (h : continued? form = some cs) :
    linesBody true q (fuel + 1) ('\\' :: form) = linesBody true q fuel cs := by
  have hplain : ¬isLinesPlain true q '\\' := by simp [isLinesPlain]
  rw [linesBody_of_not_plain fuel hplain, behindPlain]
  · rw [if_neg (Ne.symm hq), if_pos ⟨rfl, rfl⟩, h]
    dsimp only
    cases linesBody true q fuel cs <;> rfl
  · intro heq
    cases heq
  · intro rest heq
    cases heq

theorem quotes_append {n : Nat} {cs : List Char} (hcs : ∀ c ∈ cs.head?, c ≠ q) :
    quotes q (List.replicate n q ++ cs) = (n, cs) := by
  have hsame : ∀ c ∈ List.replicate n q, (c == q) = true := by
    intro c hc
    simp [List.eq_of_mem_replicate hc]
  rw [quotes, List.takeWhile_append_of_pos hsame, List.dropWhile_append_of_pos hsame]
  cases cs with
  | nil => simp
  | cons c cs =>
      have hc := hcs c rfl
      simp [hc]

theorem linesBody_run (hq : q ≠ '\n' ∧ q ≠ '\r') {n : Nat} (hn : 0 < n) {cs : List Char}
    (hcs : ∀ c ∈ cs.head?, c ≠ q) :
    linesBody escapes q (fuel + 1) (List.replicate n q ++ cs) =
      if n < 3 then
        (linesBody escapes q fuel cs).map fun (s, rest) => (List.replicate n q ++ s, rest)
      else if n ≤ 5 then some (List.replicate (n - 3) q, cs)
      else some ([q, q], List.replicate (n - 5) q ++ cs) := by
  have hplain : ¬isLinesPlain escapes q q := by simp [isLinesPlain]
  have hquotes := quotes_append (n := n) hcs
  obtain ⟨n, rfl⟩ : ∃ m, n = m + 1 := ⟨n - 1, by omega⟩
  rw [List.replicate_succ, List.cons_append] at hquotes ⊢
  rw [linesBody_of_not_plain fuel hplain, behindPlain]
  · rw [if_pos rfl, hquotes]
    dsimp only
    congr 1
    cases linesBody escapes q fuel cs <;> rfl
  · exact hq.1
  · intro rest heq
    exact absurd heq hq.2

/-- One or two quotes in front of anything else belong to the text. -/
theorem linesBody_quotes (hq : q ≠ '\n' ∧ q ≠ '\r') {n : Nat} (hn : 0 < n) (hn' : n < 3)
    {cs : List Char} (hcs : ∀ c ∈ cs.head?, c ≠ q) :
    linesBody escapes q (fuel + 1) (List.replicate n q ++ cs) =
      (linesBody escapes q fuel cs).map fun (s, rest) => (List.replicate n q ++ s, rest) := by
  rw [linesBody_run fuel hq hn hcs, if_pos hn']

/-- Three quotes close the text, and up to two in front of them belong to it. -/
theorem linesBody_close (hq : q ≠ '\n' ∧ q ≠ '\r') {n : Nat} (hn : n ≤ 2)
    {rest : List Char} (hrest : ∀ c ∈ rest.head?, c ≠ q) :
    linesBody escapes q (fuel + 1) (List.replicate n q ++ (q :: q :: q :: rest)) =
      some (List.replicate n q, rest) := by
  have hrun : List.replicate n q ++ (q :: q :: q :: rest) = List.replicate (n + 3) q ++ rest := by
    rw [← List.replicate_append_replicate, List.append_assoc]
    rfl
  rw [hrun, linesBody_run fuel hq (by omega) hrest, if_neg (by omega), if_pos (by omega),
    Nat.add_sub_cancel]

end

/-- What follows is neither blank nor the end of a line. -/
def IsVisible (cs : List Char) : Prop := ∀ c ∈ cs.head?, ¬isSpace c ∧ c ≠ '\n' ∧ c ≠ '\r'

theorem skipBlankLines_of_isBlankLines {skipped rest : List Char} (h : IsBlankLines skipped)
    (hrest : IsVisible rest) : skipBlankLines (skipped ++ rest) = rest := by
  induction h with
  | nil =>
      cases rest with
      | nil => rfl
      | cons c rest =>
          obtain ⟨hspace, hfeed, hreturn⟩ := hrest c rfl
          rw [List.nil_append, skipBlankLines]
          · simp [hspace, hfeed]
          · intro _ heq
            exact absurd heq hreturn
  | blank space _ ih =>
      rw [List.cons_append, skipBlankLines]
      · simp [space, ih]
      · rintro _ rfl
        exact absurd space (by decide)
  | newline ends _ ih =>
      cases ends with
      | feed => exact ih
      | returnFeed => exact ih

theorem newline?_of_isNewline {newline : List Char} (h : IsNewline newline) (rest : List Char) :
    newline? (newline ++ rest) = some rest := by
  cases h with
  | feed => rfl
  | returnFeed => rfl

theorem skipSpace_append {blank rest : List Char} (h : IsBlank blank) :
    skipSpace (blank ++ rest) = skipSpace rest :=
  List.dropWhile_append_of_pos h

theorem skipSpace_of_head {rest : List Char} (h : ∀ c ∈ rest.head?, ¬isSpace c) :
    skipSpace rest = rest := by
  cases rest with
  | nil => rfl
  | cons c rest => exact List.dropWhile_cons_of_neg (h c rfl)

theorem IsNewline.head {newline : List Char} (h : IsNewline newline) {P : Char → Prop}
    (hfeed : P '\n') (hreturn : P '\r') (rest : List Char) :
    ∀ c ∈ (newline ++ rest).head?, P c := by
  cases h with
  | feed =>
      rintro c ⟨⟩
      exact hfeed
  | returnFeed =>
      rintro c ⟨⟩
      exact hreturn

theorem continued?_append {blank newline skipped rest : List Char} (hblank : IsBlank blank)
    (hnewline : IsNewline newline) (hskipped : IsBlankLines skipped) (hrest : IsVisible rest) :
    continued? (blank ++ (newline ++ (skipped ++ rest))) = some rest := by
  rw [continued?, skipSpace_append hblank,
    skipSpace_of_head (hnewline.head (by decide) (by decide) _), newline?_of_isNewline hnewline,
    Option.map_some, skipBlankLines_of_isBlankLines hskipped hrest]

/-- A character that can close a text of several lines. -/
structure IsDelimiter (q : Char) : Prop where
  visible : ¬isSpace q ∧ q ≠ '\n' ∧ q ≠ '\r'
  backslash : q ≠ '\\'

theorem isVisible_append {form rest : List Char} (hform : IsVisible form) (hrest : IsVisible rest) :
    IsVisible (form ++ rest) := by
  cases form with
  | nil => exact hrest
  | cons c form => exact hform

/-- A text on several lines is read up to its closing quotes. -/
theorem linesBody_of_isLines {escapes : Bool} {q : Char} {cs form : List Char}
    (h : IsLines escapes q cs form) (hq : IsDelimiter q) {rest : List Char}
    (hrest : ∀ c ∈ rest.head?, c ≠ q) {fuel : Nat} (hfuel : form.length < fuel) :
    linesBody escapes q fuel (form ++ q :: q :: q :: rest) = some (cs, rest) := by
  have hends := hq.visible.2
  induction h generalizing fuel with
  | close few =>
      obtain ⟨fuel, rfl⟩ : ∃ n, fuel = n + 1 := ⟨fuel - 1, by omega⟩
      exact linesBody_close fuel hends few hrest
  | @plain c cs form text quote backslash _ ih =>
      obtain ⟨fuel, rfl⟩ : ∃ n, fuel = n + 1 := ⟨fuel - 1, by omega⟩
      have hplain : isLinesPlain escapes q c := by
        cases escapes with
        | false => simp [isLinesPlain, text, quote]
        | true => simp [isLinesPlain, text, quote, backslash rfl]
      rw [List.length_cons] at hfuel
      rw [List.cons_append, linesBody_plain fuel hplain, ih (by omega)]
      rfl
  | @newline newline cs form ends _ ih =>
      rw [List.length_append] at hfuel
      obtain ⟨fuel, rfl⟩ : ∃ n, fuel = n + 1 := ⟨fuel - 1, by omega⟩
      cases ends with
      | feed =>
          rw [List.length_singleton] at hfuel
          rw [List.append_assoc, List.singleton_append, linesBody_newline, ih (by omega)]
          rfl
      | returnFeed =>
          rw [List.length_cons] at hfuel
          change linesBody escapes q (fuel + 1) ('\r' :: '\n' :: (form ++ q :: q :: q :: rest)) = _
          rw [linesBody_returnFeed, ih (by omega)]
          rfl
  | @quotes n c cs form few other _ ih =>
      rw [List.length_append, List.length_replicate] at hfuel
      obtain rfl | hpos := Nat.eq_zero_or_pos n
      · exact ih (by omega)
      · have hother : ∀ d ∈ (c :: form ++ q :: q :: q :: rest).head?, d ≠ q := by
          rintro d ⟨⟩
          exact other
        obtain ⟨fuel, rfl⟩ : ∃ n, fuel = n + 1 := ⟨fuel - 1, by omega⟩
        rw [List.append_assoc, linesBody_quotes fuel hends hpos (by omega) hother, ih (by omega)]
        rfl
  | @escaped c cs letters form allowed escape _ ih =>
      cases allowed
      obtain ⟨first, others, rfl, hvisible⟩ := escape.exists_cons
      rw [List.length_cons, List.length_append] at hfuel
      obtain ⟨fuel, rfl⟩ : ∃ n, fuel = n + 1 := ⟨fuel - 1, by omega⟩
      have hread : escape? (first :: (others ++ (form ++ q :: q :: q :: rest))) = _ :=
        escape?_of_isEscape escape _
      rw [List.cons_append, List.append_assoc, List.cons_append,
        linesBody_escape fuel hq.backslash hvisible hread, ih (by omega)]
      rfl
  | @continued blank newline skipped cs form allowed blanks ends gap visible _ ih =>
      cases allowed
      simp only [List.length_cons, List.length_append] at hfuel
      obtain ⟨fuel, rfl⟩ : ∃ n, fuel = n + 1 := ⟨fuel - 1, by omega⟩
      have hvisible : IsVisible (form ++ q :: q :: q :: rest) := by
        refine isVisible_append visible ?_
        rintro c ⟨⟩
        exact hq.visible
      simp only [List.cons_append, List.append_assoc]
      rw [linesBody_continued fuel hq.backslash (continued?_append blanks ends gap hvisible),
        ih (by omega)]

/-! ### The forms of a text -/

theorem skipFirstNewline_of_isFirst {first form rest : List Char} (h : IsFirst form first)
    (hrest : ∀ c ∈ rest.head?, c ≠ '\n' ∧ c ≠ '\r') :
    skipFirstNewline (first ++ (form ++ rest)) = form ++ rest := by
  cases h with
  | none visible =>
      have hhead : ∀ c ∈ (form ++ rest).head?, c ≠ '\n' ∧ c ≠ '\r' := by
        cases form with
        | nil => exact hrest
        | cons c form => exact visible
      rw [List.nil_append, skipFirstNewline, newline?]
      · rfl
      · intro _ heq
        exact (hhead '\n' (by rw [heq]; rfl)).1 rfl
      · intro _ heq
        exact (hhead '\r' (by rw [heq]; rfl)).2 rfl
  | newline ends =>
      rw [skipFirstNewline, newline?_of_isNewline ends]
      rfl

/-- What stands behind a text in a document: no quote and no apostrophe. -/
def EndsText (rest : List Char) : Prop :=
  ∀ c ∈ rest.head?, c ≠ '"' ∧ c ≠ '\''

section

variable {cs rest : List Char}

theorem text?_quote (h : ∀ behind, cs ≠ '"' :: '"' :: behind) :
    text? ('"' :: cs) =
      (basicBody (cs.length + 1) cs).map fun (s, rest) => (String.ofList s, rest) := by
  rw [text?]
  · cases basicBody (cs.length + 1) cs <;> rfl
  · exact h

theorem text?_apostrophe (h : ∀ behind, cs ≠ '\'' :: '\'' :: behind) :
    text? ('\'' :: cs) = (literalBody cs).map fun (s, rest) => (String.ofList s, rest) := by
  rw [text?]
  · cases literalBody cs <;> rfl
  · exact h

theorem text?_threeQuotes :
    text? ('"' :: '"' :: '"' :: cs) =
      (linesBody true '"' (cs.length + 1) (skipFirstNewline cs)).map
        fun (s, rest) => (String.ofList s, rest) := by
  rw [text?]
  cases linesBody true '"' (cs.length + 1) (skipFirstNewline cs) <;> rfl

theorem text?_threeApostrophes :
    text? ('\'' :: '\'' :: '\'' :: cs) =
      (linesBody false '\'' (cs.length + 1) (skipFirstNewline cs)).map
        fun (s, rest) => (String.ofList s, rest) := by
  rw [text?]
  cases linesBody false '\'' (cs.length + 1) (skipFirstNewline cs) <;> rfl

end

theorem IsBasic.head_ne_quote {cs form : List Char} (h : IsBasic cs form) :
    ∀ c ∈ form.head?, c ≠ '"' := by
  cases h with
  | nil => exact nofun
  | plain _ quote _ _ =>
      rintro c ⟨⟩
      exact quote
  | escaped _ _ =>
      rintro c ⟨⟩
      decide

/-- A text on one line does not begin like one on several. -/
theorem text?_of_isQuoted {s : String} {cs rest : List Char} (h : IsQuoted s cs)
    (hrest : EndsText rest) : text? (cs ++ rest) = some (s, rest) := by
  cases h with
  | @basic form spelled =>
      have hopen : ∀ behind, form ++ '"' :: rest ≠ '"' :: '"' :: behind := by
        intro behind heq
        cases form with
        | nil => exact (hrest '"' (by rw [(List.cons.inj heq).2]; rfl)).1 rfl
        | cons c form => exact spelled.head_ne_quote c rfl (List.cons.inj heq).1
      have hlength : form.length < (form ++ '"' :: rest).length + 1 := by
        rw [List.length_append]
        omega
      rw [List.cons_append, List.append_assoc, List.singleton_append, text?_quote hopen,
        basicBody_of_isBasic spelled rest hlength]
      simp only [Option.map_some, String.ofList_toList]
  | literal spelled =>
      have hopen : ∀ behind, s.toList ++ '\'' :: rest ≠ '\'' :: '\'' :: behind := by
        intro behind heq
        cases hs : s.toList with
        | nil =>
            rw [hs] at heq
            exact (hrest '\'' (by rw [(List.cons.inj heq).2]; rfl)).2 rfl
        | cons c cs =>
            rw [hs] at heq spelled
            exact (spelled c List.mem_cons_self).2 (List.cons.inj heq).1
      have hplain : ∀ c ∈ s.toList, isLiteralPlain c := by
        intro c hc
        simpa [isLiteralPlain] using spelled c hc
      rw [List.cons_append, List.append_assoc, List.singleton_append, text?_apostrophe hopen,
        literalBody_append hplain]
      simp only [Option.map_some, String.ofList_toList]

/-- Every text is read from each of its forms. -/
theorem text?_of_isText {s : String} {cs rest : List Char} (h : IsText s cs)
    (hrest : EndsText rest) : text? (cs ++ rest) = some (s, rest) := by
  cases h with
  | line quoted => exact text?_of_isQuoted quoted hrest
  | @basicLines first form begins spelled =>
      have hfirst : skipFirstNewline (first ++ (form ++ '"' :: '"' :: '"' :: rest)) = _ :=
        skipFirstNewline_of_isFirst begins (by rintro c ⟨⟩; decide)
      have hread : linesBody true '"' ((first ++ (form ++ '"' :: '"' :: '"' :: rest)).length + 1)
          (form ++ '"' :: '"' :: '"' :: rest) = some (s.toList, rest) :=
        linesBody_of_isLines spelled ⟨by decide, by decide⟩ (fun c hc => (hrest c hc).1)
          (by simp only [List.length_append]; omega)
      simp only [List.cons_append, List.append_assoc, List.nil_append]
      rw [text?_threeQuotes, hfirst, hread]
      simp only [Option.map_some, String.ofList_toList]
  | @literalLines first form begins spelled =>
      have hfirst : skipFirstNewline (first ++ (form ++ '\'' :: '\'' :: '\'' :: rest)) = _ :=
        skipFirstNewline_of_isFirst begins (by rintro c ⟨⟩; decide)
      have hread : linesBody false '\''
          ((first ++ (form ++ '\'' :: '\'' :: '\'' :: rest)).length + 1)
          (form ++ '\'' :: '\'' :: '\'' :: rest) = some (s.toList, rest) :=
        linesBody_of_isLines spelled ⟨by decide, by decide⟩ (fun c hc => (hrest c hc).2)
          (by simp only [List.length_append]; omega)
      simp only [List.cons_append, List.append_assoc, List.nil_append]
      rw [text?_threeApostrophes, hfirst, hread]
      simp only [Option.map_some, String.ofList_toList]

end TokenAuthority.Toml

import TokenAuthority.Proofs.Toml.Document
import TokenAuthority.Toml.Printer

/-!
# Documents that are written

What is written is a document: every text in the form that it is written in, every number, and
the entries and headers around them. So it is read back as what was written.
-/

namespace TokenAuthority.Toml

/-! ### Characters -/

theorem isTextChar_of_not_needsEscape {c : Char} (h : ¬needsEscape c) (hnewline : c ≠ '\n') :
    isTextChar c := by
  simp only [needsEscape, Bool.or_eq_true, Bool.and_eq_true, decide_eq_true_eq, bne_iff_ne,
    beq_iff_eq, not_or, not_and, not_not] at h
  simp only [isTextChar, isCommentChar, Bool.or_eq_true, Bool.and_eq_true, decide_eq_true_eq,
    bne_iff_ne, beq_iff_eq]
  by_cases htab : c = '\t'
  · exact Or.inl htab
  · refine Or.inr ⟨?_, h.2⟩
    by_contra hlow
    exact hnewline (h.1 ⟨by omega, htab⟩)

theorem toNat_of_needsEscape {c : Char} (h : needsEscape c) : c.toNat < 0x20 ∨ c.toNat = 0x7F := by
  simp only [needsEscape, Bool.or_eq_true, Bool.and_eq_true, decide_eq_true_eq, beq_iff_eq] at h
  exact h.imp (fun h => h.1.1) id

theorem isHex_of_lt {n : Nat} (h : n < 0x80) :
    IsHex n ['0', '0', Hex.digit (n / 16), (Hex.digit (n % 16)).toUpper] := by
  have hzero : IsHexDigit 0 '0' := by
    rw [IsHexDigit]
    decide
  have hform := (((IsHex.nil.append hzero).append hzero).append
    (d := n / 16) ⟨by omega, Or.inl rfl⟩).append (d := n % 16) ⟨by omega, Or.inr rfl⟩
  have hn : (((0 * 16 + 0) * 16 + 0) * 16 + n / 16) * 16 + n % 16 = n := by omega
  rw [hn] at hform
  exact hform

/-- How a character other than a quote is written in a form with escapes. -/
inductive Written (lines : Bool) (c : Char) : List Char → Prop
  | plain (text : isTextChar c) (quote : c ≠ '"') (backslash : c ≠ '\\') : Written lines c [c]
  | newline (several : lines = true) (newline : c = '\n') : Written lines c ['\n']
  | escape {letters : List Char} (escape : IsEscape c letters) : Written lines c ('\\' :: letters)

theorem written_escapedChar (lines : Bool) {c : Char} (hquote : c ≠ '"') :
    Written lines c (escapedChar lines c) := by
  unfold escapedChar
  split_ifs with h1 h2 h3 h4 h5 h6 h7 h8
  · exact .escape (.short (by rw [h1]; decide))
  · exact .escape (.short (by rw [h2]; decide))
  · exact .newline h4 h3
  · exact .escape (.short (by rw [h3]; decide))
  · exact .escape (.short (by rw [h5]; decide))
  · exact .escape (.short (by rw [h6]; decide))
  · exact .escape (.short (by rw [h7]; decide))
  · have hlow := toNat_of_needsEscape h8
    exact .escape (.four (isHex_of_lt (by omega)) rfl)
  · exact .plain (isTextChar_of_not_needsEscape h8 h3) hquote h7

/-- A character is written by itself unless it is a quote that may stand plain. -/
theorem escaped_cons (lines : Bool) (run : Nat) {c : Char} (cs : List Char)
    (h : ¬(c = '"' ∧ run < if lines then 2 else 0)) :
    ∃ form, Written lines c form ∧ escaped lines run (c :: cs) = form ++ escaped lines 0 cs := by
  by_cases hquote : c = '"'
  · subst hquote
    have hwritten : Written lines '"' ['\\', '"'] := .escape (.short (by decide))
    exact ⟨_, hwritten, if_neg fun hroom => h ⟨rfl, hroom⟩⟩
  · exact ⟨_, written_escapedChar lines hquote, if_neg hquote⟩

/-! ### Texts with escapes -/

theorem isBasic_escaped (cs : List Char) (run : Nat) : IsBasic cs (escaped false run cs) := by
  induction cs generalizing run with
  | nil => exact .nil
  | cons c cs ih =>
      obtain ⟨form, hwritten, hform⟩ := escaped_cons false run (c := c) cs (by simp)
      rw [hform]
      cases hwritten with
      | plain text quote backslash => exact .plain text quote backslash (ih 0)
      | newline several _ => cases several
      | escape escape => exact .escaped escape (ih 0)

theorem replicate_append_cons (run : Nat) (q : Char) (cs : List Char) :
    List.replicate run q ++ q :: cs = List.replicate (run + 1) q ++ cs := by
  rw [List.replicate_succ', List.append_assoc]
  rfl

/-- The plain quotes just written belong to the text together with those that follow them. -/
theorem isLines_escaped (cs : List Char) {run : Nat} (hrun : run ≤ 2) :
    IsLines true '"' (List.replicate run '"' ++ cs)
      (List.replicate run '"' ++ escaped true run cs) := by
  induction cs generalizing run with
  | nil =>
      rw [escaped, List.append_nil]
      exact .close hrun
  | cons c cs ih =>
      by_cases hplain : c = '"' ∧ run < 2
      · obtain ⟨rfl, hroom⟩ := hplain
        have hform : escaped true run ('"' :: cs) = '"' :: escaped true (run + 1) cs := if_pos hroom
        rw [hform, replicate_append_cons, replicate_append_cons]
        exact ih (by omega)
      · -- The run of plain quotes is over, with an escape or with another character.
        obtain ⟨form, hwritten, hform⟩ := escaped_cons true run cs hplain
        have hothers : IsLines true '"' cs (escaped true 0 cs) := ih (Nat.zero_le 2)
        rw [hform]
        cases hwritten with
        | plain text quote backslash =>
            exact .quotes hrun quote (.plain text quote (fun _ => backslash) hothers)
        | newline _ newline =>
            rw [newline]
            exact .quotes hrun (by decide) (.newline .feed hothers)
        | escape escape => exact .quotes hrun (by decide) (.escaped rfl escape hothers)

/-! ### Texts without escapes -/

/-- The two numbers with which the longest run of a character is found. -/
def runStep (q : Char) (n : Nat × Nat) (c : Char) : Nat × Nat :=
  let run := if c = q then n.2 + 1 else 0
  (max n.1 run, run)

theorem le_foldl_runStep (q : Char) (cs : List Char) (n : Nat × Nat) :
    n.1 ≤ (cs.foldl (runStep q) n).1 := by
  induction cs generalizing n with
  | nil => exact Nat.le_refl _
  | cons c cs ih => exact Nat.le_trans (Nat.le_max_left _ _) (ih (runStep q n c))

theorem not_mem_of_longestRun {q : Char} {cs : List Char} (n : Nat × Nat)
    (h : (cs.foldl (runStep q) n).1 = 0) : q ∉ cs := by
  induction cs generalizing n with
  | nil => exact List.not_mem_nil
  | cons c cs ih =>
      rw [List.foldl_cons] at h
      have hle := le_foldl_runStep q cs (runStep q n c)
      rw [List.mem_cons, not_or]
      refine ⟨?_, ih _ h⟩
      rintro rfl
      rw [h, runStep, if_pos rfl] at hle
      omega

/-- A text without a run of three apostrophes is written on several lines as it is. -/
theorem isLines_self (cs : List Char) (hcs : ∀ c ∈ cs, ¬needsEscape c) (longest : Nat) {run : Nat}
    (hrun : run ≤ 2) (hlongest : (cs.foldl (runStep '\'') (longest, run)).1 ≤ 2) :
    IsLines false '\'' (List.replicate run '\'' ++ cs) (List.replicate run '\'' ++ cs) := by
  induction cs generalizing longest run with
  | nil =>
      rw [List.append_nil]
      exact .close hrun
  | cons c cs ih =>
      have hbehind := fun d hd => hcs d (List.mem_cons_of_mem c hd)
      rw [List.foldl_cons, runStep] at hlongest
      by_cases hquote : c = '\''
      · subst hquote
        rw [if_pos rfl] at hlongest
        have hle := Nat.le_trans (le_foldl_runStep _ _ _) hlongest
        rw [replicate_append_cons]
        exact ih hbehind _ (by omega) hlongest
      · rw [if_neg hquote] at hlongest
        have hothers : IsLines false '\'' cs cs := ih hbehind _ (Nat.zero_le 2) hlongest
        refine .quotes hrun hquote ?_
        by_cases hnewline : c = '\n'
        · rw [hnewline]
          exact .newline .feed hothers
        · have htext := isTextChar_of_not_needsEscape (hcs c List.mem_cons_self) hnewline
          exact .plain htext hquote nofun hothers

/-! ### The form of a text -/

section

variable {cs : List Char}

theorem of_eq_literal (h : Form.of cs = .literal) :
    (∀ c ∈ cs, ¬needsEscape c) ∧ longestRun '\'' cs = 0 ∧ '\n' ∉ cs := by
  unfold Form.of at h
  dsimp only at h
  split_ifs at h with _ hliteral
  simp only [Bool.and_eq_true, Bool.not_eq_true', beq_iff_eq, List.any_eq_false,
    List.contains_eq_mem, decide_eq_false_iff_not] at hliteral
  exact ⟨hliteral.1.1, hliteral.1.2, hliteral.2⟩

theorem of_eq_literalLines (h : Form.of cs = .literalLines) :
    (∀ c ∈ cs, ¬needsEscape c) ∧ longestRun '\'' cs ≤ 2 := by
  unfold Form.of at h
  dsimp only at h
  split_ifs at h with _ _ _ hlines
  simp only [Bool.and_eq_true, Bool.not_eq_true', List.any_eq_false, decide_eq_true_eq] at hlines
  exact hlines

/-- A newline in front does not count; it is written if the text has several lines. -/
theorem isFirst_newline {form : List Char}
    (hform : '\n' ∉ cs → ∀ c ∈ form.head?, c ≠ '\n' ∧ c ≠ '\r') :
    IsFirst form (if cs.contains '\n' then ['\n'] else []) := by
  split_ifs with h
  · exact .newline .feed
  · exact .none (hform (by simpa using h))

theorem head_escaped_ne_newline (h : '\n' ∉ cs) :
    ∀ c ∈ (escaped true 0 cs).head?, c ≠ '\n' ∧ c ≠ '\r' := by
  cases cs with
  | nil =>
      rintro c ⟨⟩
  | cons c cs =>
      have hne : c ≠ '\n' := fun heq => h (heq ▸ List.mem_cons_self)
      by_cases hquote : c = '"'
      · subst hquote
        rintro c ⟨⟩
        decide
      · obtain ⟨form, hwritten, hform⟩ := escaped_cons true 0 cs (c := c) fun h => hquote h.1
        rw [hform]
        cases hwritten with
        | plain text _ _ =>
            rintro d ⟨⟩
            exact not_newline_of_isTextChar text
        | newline _ newline => exact absurd newline hne
        | escape _ =>
            rintro d ⟨⟩
            decide

theorem head_ne_newline (hcs : ∀ c ∈ cs, ¬needsEscape c) (h : '\n' ∉ cs) :
    ∀ c ∈ cs.head?, c ≠ '\n' ∧ c ≠ '\r' := by
  cases cs with
  | nil =>
      rintro c ⟨⟩
  | cons c cs =>
      have hne : c ≠ '\n' := fun heq => h (heq ▸ List.mem_cons_self)
      rintro d ⟨⟩
      exact not_newline_of_isTextChar
        (isTextChar_of_not_needsEscape (hcs c List.mem_cons_self) hne)

end

/-- A text is written in one of its forms. -/
theorem isText_writeText (s : String) : IsText s (writeText s) := by
  rw [writeText]
  cases hform : Form.of s.toList with
  | basic => simpa [Form.delimiter, Form.lines, Form.escapes] using
      IsText.line (.basic (isBasic_escaped s.toList 0))
  | literal =>
      obtain ⟨hcs, hrun, hnewline⟩ := of_eq_literal hform
      have hquote := not_mem_of_longestRun (0, 0) hrun
      have hliteral : IsLiteral s.toList := by
        intro c hc
        exact ⟨isTextChar_of_not_needsEscape (hcs c hc) fun h => hnewline (h ▸ hc),
          fun h => hquote (h ▸ hc)⟩
      simpa [Form.delimiter, Form.lines, Form.escapes] using IsText.line (.literal hliteral)
  | basicLines =>
      have hlines : IsLines true '"' s.toList (escaped true 0 s.toList) :=
        isLines_escaped s.toList (Nat.zero_le 2)
      simpa [Form.delimiter, Form.lines, Form.escapes] using
        IsText.basicLines (isFirst_newline head_escaped_ne_newline) hlines
  | literalLines =>
      obtain ⟨hcs, hrun⟩ := of_eq_literalLines hform
      have hlines : IsLines false '\'' s.toList s.toList :=
        isLines_self s.toList hcs 0 (Nat.zero_le 2) hrun
      simpa [Form.delimiter, Form.lines, Form.escapes] using
        IsText.literalLines (isFirst_newline (head_ne_newline hcs)) hlines

/-! ### Whole numbers -/

theorem isDigits_self {isDigit : Char → Bool} {ds : List Char} (hne : ds ≠ [])
    (h : ∀ d ∈ ds, isDigit d) : IsDigits isDigit ds ds := by
  induction ds with
  | nil => exact absurd rfl hne
  | cons d ds ih =>
      rw [List.forall_mem_cons] at h
      cases ds with
      | nil => exact .last h.1
      | cons d' ds => exact .next h.1 (ih (List.cons_ne_nil _ _) h.2)

theorem isDigit_of_mem_toDigits {n : Nat} : ∀ c ∈ Nat.toDigits 10 n, c.isDigit :=
  fun _ hc => Nat.isDigit_of_mem_toDigits (by decide) (by decide) hc

theorem value?_of_isDigit {c : Char} (h : c.isDigit) : Hex.value? c = some (c.toNat - 48) := by
  rw [Hex.value?, if_pos]
  simpa [Char.isDigit, Char.le_def] using h

theorem ofDigits_toDigits (n : Nat) : ofDigits 10 (Nat.toDigits 10 n) = n := by
  have hsame : ∀ (ds : List Char) (k : Nat), (∀ c ∈ ds, c.isDigit) →
      ds.foldl (fun n c => n * 10 + (Hex.value? c).getD 0) k = Nat.ofDigitChars 10 ds k := by
    intro ds
    induction ds with
    | nil => exact fun _ _ => rfl
    | cons d ds ih =>
        intro k hds
        rw [List.forall_mem_cons] at hds
        rw [List.foldl_cons, ih _ hds.2, value?_of_isDigit hds.1, Nat.ofDigitChars_cons,
          Nat.mul_comm 10 k]
        rfl
  rw [ofDigits, hsame _ _ isDigit_of_mem_toDigits]
  exact Nat.ofDigitChars_ten_toDigits

theorem eq_zero_of_head_toDigits {n : Nat} (h : (Nat.toDigits 10 n).head? = some '0') : n = 0 := by
  induction n using Nat.strongRecOn with
  | _ n ih =>
      have hlow : ∀ n < 10, [Nat.digitChar n].head? = some '0' → n = 0 := by decide
      by_cases hlt : n < 10
      · rw [Nat.toDigits_of_lt_base hlt] at h
        exact hlow n hlt h
      · obtain ⟨d, ds, hds⟩ : ∃ d ds, Nat.toDigits 10 (n / 10) = d :: ds :=
          List.exists_cons_of_ne_nil Nat.toDigits_ne_nil
        have hzero := ih (n / 10) (by omega)
        rw [Nat.toDigits_of_base_le (by decide) (by omega), hds] at h
        rw [hds] at hzero
        have hdiv := hzero h
        omega

theorem isDecimal_toDigits (n : Nat) : IsDecimal (Nat.toDigits 10 n) (Nat.toDigits 10 n) := by
  refine .mk (isDigits_self Nat.toDigits_ne_nil isDigit_of_mem_toDigits) fun h => ?_
  rw [eq_zero_of_head_toDigits h]
  rfl

/-- A whole number is written with its digits, and with its sign if that is minus. -/
theorem isInteger_toString (n : Int) : IsInteger n (toString n).toList := by
  cases n with
  | ofNat n =>
      have hform := IsInteger.positive (Or.inl rfl) (isDecimal_toDigits n)
      have hwritten : (toString (Int.ofNat n)).toList = Nat.toDigits 10 n := by
        simp [toString, Int.repr, Nat.repr]
      rw [ofDigits_toDigits] at hform
      rw [hwritten]
      exact hform
  | negSucc n =>
      have hform := IsInteger.negative (isDecimal_toDigits (n + 1))
      have hwritten : (toString (Int.negSucc n)).toList = '-' :: Nat.toDigits 10 (n + 1) := by
        simp [toString, Int.repr, Nat.repr]
      rw [ofDigits_toDigits] at hform
      rw [hwritten]
      exact hform

/-! ### Lines -/

theorem isBlank_space : IsBlank [' '] := by
  rintro c hc
  rw [List.mem_singleton.mp hc]
  rfl

theorem isTail_nil : IsTail [] := show IsTail ([] ++ []) from .mk isBlank_nil .none

theorem isGap_nil : IsGap [] := .blank isBlank_nil

theorem isDocument_nil : IsDocument [] [] :=
  show IsDocument [] ([] ++ []) from .empty isGap_nil .none

section

variable {key : String} {lines : List Line} {cs : List Char}

/-- A line at the end of which the next one begins. -/
theorem IsDocument.cons {line : Line} {form : List Char} (h : IsDocument lines cs)
    (hline : IsLine line form) : IsDocument (line :: lines) (form ++ '\n' :: cs) :=
  show IsDocument (line :: lines) ([] ++ (form ++ ([] ++ (['\n'] ++ cs)))) from
    .next isGap_nil hline isTail_nil .feed h

theorem IsDocument.writeEntry {item : Item} {value : List Char} (h : IsDocument lines cs)
    (hkey : IsBare key) (hvalue : IsValue item value) :
    IsDocument (.entry [] key item :: lines) (Toml.writeEntry key value ++ cs) := by
  have hdocument := h.cons (IsLine.entry (.bare hkey) isBlank_space isBlank_space hvalue)
  simpa [Toml.writeEntry] using hdocument

theorem IsDocument.writeTextEntry (h : IsDocument lines cs) (hkey : IsBare key) (value : String) :
    IsDocument (.entry [] key (.text value) :: lines) (Toml.writeTextEntry key value ++ cs) :=
  h.writeEntry hkey (.text (isText_writeText value))

theorem IsDocument.writeIntegerEntry {value : Int} (h : IsDocument lines cs) (hkey : IsBare key)
    (hvalue : IsWord value) :
    IsDocument (.entry [] key (.integer value) :: lines) (Toml.writeIntegerEntry key value ++ cs) :=
  h.writeEntry hkey (.integer (isInteger_toString value) hvalue)

theorem IsDocument.writeHeader (h : IsDocument lines cs) (hkey : IsBare key) :
    IsDocument (.header ⟨false, [key]⟩ :: lines) (Toml.writeHeader key ++ cs) := by
  have hdocument := h.cons (IsLine.header isBlank_nil (.bare hkey) isBlank_nil)
  simpa [Toml.writeHeader] using hdocument

/-- A line that says nothing in front. -/
theorem IsDocument.newline (h : IsDocument lines cs) : IsDocument lines ('\n' :: cs) := by
  have hgap : ∀ {gap}, IsGap gap → IsGap ('\n' :: gap) := fun h => .line isTail_nil .feed h
  cases h with
  | empty silent remark => exact .empty (hgap silent) remark
  | last silent spelled trailing => exact .last (hgap silent) spelled trailing
  | next silent spelled trailing ends behind =>
      exact .next (hgap silent) spelled trailing ends behind

end

/-! ### Entries with texts -/

/-- The text of entries with texts. -/
def writeEntries (entries : List (String × String)) : List Char :=
  entries.flatMap fun e => writeTextEntry e.1 e.2

theorem isDocument_writeEntries {entries : List (String × String)}
    (h : ∀ e ∈ entries, IsBare e.1) :
    IsDocument (entryLines (entries.map fun e => (e.1, .text e.2))) (writeEntries entries) := by
  induction entries with
  | nil => exact isDocument_nil
  | cons e entries ih =>
      rw [List.forall_mem_cons] at h
      exact (ih h.2).writeTextEntry h.1 e.2

/-- A document of entries with bare keys is read back, if no key is told twice. -/
theorem read_writeEntries {entries : List (String × String)} (h : ∀ e ∈ entries, IsBare e.1)
    (hkeys : (entries.map Prod.fst).Nodup) :
    read (String.ofList (writeEntries entries)) = .ok (entries.map fun e => (e.1, .text e.2)) := by
  have hnames : (entries.map fun e => (e.1, Item.text e.2)).map Prod.fst =
      entries.map Prod.fst := by
    rw [List.map_map]
    rfl
  have hnodup : ((entries.map fun e => (e.1, Item.text e.2)).map Prod.fst ++
      ([] : List (String × Entries)).map Prod.fst).Nodup := by
    rwa [List.map_nil, List.append_nil, hnames]
  have hbuild := build_tableLines hnodup (List.forall_mem_nil _)
  simp only [List.flatMap_nil, List.append_nil, List.map_nil] at hbuild
  exact read_of_isDocument (isDocument_writeEntries h) hbuild

end TokenAuthority.Toml

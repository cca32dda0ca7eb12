import TokenAuthority.Proofs.Toml.Number
import TokenAuthority.Proofs.Toml.Text

/-!
# Reading documents

The lines of a document are read from each of its forms, and the tables that they describe are
built from them, if no table and no key is told twice.
-/

namespace TokenAuthority.Toml

/-! ### Keys -/

section

variable {key : String} {name before behind rest : List Char}

/-- Whether a key may begin with a character. -/
def beginsKey (c : Char) : Bool := isKeyChar c || c == '"' || c == '\''

/-- A key begins with a character that no other part of a document begins with. -/
theorem IsKey.exists_cons (h : IsKey key name) :
    ∃ c cs, name = c :: cs ∧ ∀ d, beginsKey d = false → c ≠ d := by
  have hne : ∀ {c}, beginsKey c → ∀ d, beginsKey d = false → c ≠ d := by
    rintro c hc _ hd rfl
    rw [hc] at hd
    cases hd
  cases h with
  | bare bare =>
      obtain ⟨c, cs, hcs⟩ := List.exists_cons_of_ne_nil bare.1
      have hc : isKeyChar c := bare.2 c (by rw [hcs]; exact List.mem_cons_self)
      exact ⟨c, cs, hcs, hne (by simp [beginsKey, hc])⟩
  | quoted quoted =>
      cases quoted with
      | basic _ => exact ⟨'"', _, rfl, hne (by decide)⟩
      | literal _ => exact ⟨'\'', _, rfl, hne (by decide)⟩

theorem simpleKey?_of_isQuoted (h : IsQuoted key name) (rest : List Char) :
    simpleKey? (name ++ rest) = some (key, rest) := by
  cases h with
  | @basic form spelled =>
      have hlength : form.length < (form ++ '"' :: rest).length + 1 := by
        rw [List.length_append]
        omega
      rw [List.cons_append, List.append_assoc, List.singleton_append, simpleKey?,
        basicBody_of_isBasic spelled rest hlength]
      simp only [Option.bind_eq_bind, Option.bind_some, String.ofList_toList]
      rfl
  | literal spelled =>
      have hplain : ∀ c ∈ key.toList, isLiteralPlain c := by
        intro c hc
        simpa [isLiteralPlain] using spelled c hc
      rw [List.cons_append, List.append_assoc, List.singleton_append, simpleKey?,
        literalBody_append hplain]
      simp only [Option.bind_eq_bind, Option.bind_some, String.ofList_toList]
      rfl

theorem simpleKey?_of_isKey (h : IsKey key name) (hrest : ∀ c ∈ rest.head?, isKeyChar c = false) :
    simpleKey? (name ++ rest) = some (key, rest) := by
  cases h with
  | quoted quoted => exact simpleKey?_of_isQuoted quoted rest
  | bare bare =>
      obtain ⟨htake, hdrop⟩ := span_append bare.2 hrest
      have hread : simpleKey? (key.toList ++ rest) =
          if (key.toList ++ rest).takeWhile isKeyChar = [] then none
          else some (String.ofList ((key.toList ++ rest).takeWhile isKeyChar),
            (key.toList ++ rest).dropWhile isKeyChar) := by
        obtain ⟨d, ds, hds⟩ := List.exists_cons_of_ne_nil bare.1
        have hd : isKeyChar d := bare.2 d (by rw [hds]; exact List.mem_cons_self)
        rw [hds, List.cons_append, simpleKey?]
        · rintro _ ⟨⟩
          revert hd
          decide
        · rintro _ ⟨⟩
          revert hd
          decide
      rw [hread, htake, hdrop, if_neg bare.1, String.ofList_toList]

/-- No blank is part of the front of a key. -/
theorem IsKey.skipSpace_append (h : IsKey key name) (rest : List Char) :
    skipSpace (name ++ rest) = name ++ rest := by
  obtain ⟨c, cs, rfl, hne⟩ := h.exists_cons
  refine skipSpace_of_head ?_
  rintro d ⟨⟩ hd
  simp only [isSpace, Bool.or_eq_true, beq_iff_eq] at hd
  obtain hd | hd := hd
  · exact hne ' ' (by decide) hd
  · exact hne '\t' (by decide) hd

/-- A bare key does not go on in the blanks behind it. -/
theorem IsBlank.head_not_isKeyChar (h : IsBlank behind) {mark : Char}
    (hmark : isKeyChar mark = false) (rest : List Char) :
    ∀ d ∈ (behind ++ mark :: rest).head?, isKeyChar d = false := by
  cases behind with
  | nil =>
      rintro d ⟨⟩
      exact hmark
  | cons c behind =>
      rintro d ⟨⟩
      have hspace := h c List.mem_cons_self
      simp only [isSpace, Bool.or_eq_true, beq_iff_eq] at hspace
      obtain rfl | rfl := hspace <;> decide

/-- A key is read up to the mark that stands behind it and blanks. -/
theorem key?_of_isKey (hbefore : IsBlank before) (h : IsKey key name) (hbehind : IsBlank behind)
    {mark : Char} (hmark : mark = '=' ∨ mark = ']') (fuel : Nat) (rest : List Char) :
    key? (fuel + 1) (before ++ (name ++ (behind ++ mark :: rest))) =
      some ([key], mark :: rest) := by
  have hvisible : ¬isSpace mark ∧ isKeyChar mark = false ∧ mark ≠ '.' := by
    obtain rfl | rfl := hmark <;> decide
  have hstop := hbehind.head_not_isKeyChar hvisible.2.1 rest
  have hlast : skipSpace (behind ++ mark :: rest) = mark :: rest := by
    rw [skipSpace_append hbehind]
    refine skipSpace_of_head ?_
    rintro d ⟨⟩
    exact hvisible.1
  rw [key?, skipSpace_append hbefore, h.skipSpace_append, simpleKey?_of_isKey h hstop]
  simp only [Option.bind_eq_bind, Option.bind_some]
  rw [hlast]
  split
  · rename_i heq
    exact absurd (List.cons.inj heq).1 hvisible.2.2
  · rfl

end

/-! ### Values -/

section

variable {item : Item} {cs rest : List Char}

theorem EndsValue.endsText (h : EndsValue rest) : EndsText rest :=
  h.head (by decide)

/-- A number is read as a whole number when it is no other number and no date. -/
theorem value?_of_integer {n : Int} (hhead : ∀ c ∈ cs.head?, c.isDigit ∨ c = '+' ∨ c = '-')
    (hdate : dateTime? cs = none) (hfloat : float? cs = none) (hspecial : special? cs = none)
    (hinteger : integer? cs = some (n, rest)) (fuel depth : Nat) :
    value? (fuel + 1) depth cs = some (.integer n, rest) := by
  have hne : ∀ (c : Char) (others : List Char), ¬(c.isDigit ∨ c = '+' ∨ c = '-') →
      cs ≠ c :: others := by
    rintro c others hc rfl
    exact hc (hhead c rfl)
  rw [value?, hdate, hfloat, hspecial, hinteger]
  · rfl
  · exact fun others => hne '"' others (by decide)
  · exact fun others => hne '\'' others (by decide)
  · exact fun others => hne 't' _ (by decide)
  · exact fun others => hne 'f' _ (by decide)
  · exact fun others heq _ => hne '[' others (by decide) heq
  · exact fun others heq _ => hne '{' others (by decide) heq
  · exact fun others _ heq _ => hne '[' others (by decide) heq
  · exact fun others _ heq _ => hne '{' others (by decide) heq

theorem IsText.exists_cons {s : String} (h : IsText s cs) :
    ∃ others, cs = '"' :: others ∨ cs = '\'' :: others := by
  cases h with
  | line quoted =>
      cases quoted with
      | basic _ => exact ⟨_, Or.inl rfl⟩
      | literal _ => exact ⟨_, Or.inr rfl⟩
  | basicLines _ _ => exact ⟨_, Or.inl rfl⟩
  | literalLines _ _ => exact ⟨_, Or.inr rfl⟩

theorem value?_of_isText {s : String} (h : IsText s cs) (hrest : EndsText rest)
    (fuel depth : Nat) : value? (fuel + 1) depth (cs ++ rest) = some (.text s, rest) := by
  have hread := text?_of_isText h hrest
  obtain ⟨others, rfl | rfl⟩ := h.exists_cons
  · rw [List.cons_append] at hread ⊢
    rw [value?, hread]
    rfl
  · rw [List.cons_append] at hread ⊢
    rw [value?, hread]
    rfl

theorem value?_of_isValue (h : IsValue item cs) (hrest : EndsValue rest) (fuel depth : Nat) :
    value? (fuel + 1) depth (cs ++ rest) = some (item, rest) := by
  cases h with
  | text spelled => exact value?_of_isText spelled hrest.endsText fuel depth
  | integer spelled word =>
      have hreads := readsWhole_of_isInteger spelled hrest
      exact value?_of_integer hreads.head (dateTime?_eq_none hreads.tail hrest) hreads.notFloat
        hreads.notSpecial (integer?_of_isInteger spelled word hrest) fuel depth

end

/-! ### Ends of lines, and lines that say nothing -/

section

variable {gap tail newline comment rest : List Char}

theorem skipComment_of_isComment (h : IsComment comment)
    (hrest : ∀ c ∈ rest.head?, isCommentChar c = false) : skipComment (comment ++ rest) = rest := by
  cases h with
  | none =>
      rw [List.nil_append, skipComment]
      rintro others rfl
      cases hrest '#' rfl
  | some visible =>
      rw [List.cons_append, skipComment]
      exact (span_append visible hrest).2

theorem IsComment.skipSpace (h : IsComment comment) (hrest : ∀ c ∈ rest.head?, ¬isSpace c) :
    skipSpace (comment ++ rest) = comment ++ rest := by
  cases h with
  | none => exact skipSpace_of_head hrest
  | some _ =>
      refine skipSpace_of_head ?_
      rintro c ⟨⟩
      decide

theorem IsTail.skip (h : IsTail tail) (hrest : ∀ c ∈ rest.head?, isCommentChar c = false) :
    skipComment (skipSpace (tail ++ rest)) = rest := by
  obtain ⟨hblank, hcomment⟩ := h
  have hspace : ∀ c ∈ rest.head?, ¬isSpace c := by
    intro c hc hspace
    have hchar := hrest c hc
    simp only [isSpace, Bool.or_eq_true, beq_iff_eq] at hspace
    obtain rfl | rfl := hspace <;> cases hchar
  rw [List.append_assoc, skipSpace_append hblank, hcomment.skipSpace hspace,
    skipComment_of_isComment hcomment hrest]

/-- A line is over at its end. -/
theorem lineEnd?_of_isNewline (h : IsTail tail) (hnewline : IsNewline newline)
    (rest : List Char) : lineEnd? (tail ++ (newline ++ rest)) = some rest := by
  rw [lineEnd?, h.skip (hnewline.head (by decide) (by decide) rest)]
  cases hnewline with
  | feed => rfl
  | returnFeed => rfl

/-- The last line is over at the end of the document. -/
theorem lineEnd?_of_isTail (h : IsTail tail) : lineEnd? tail = some [] := by
  have hskip : skipComment (skipSpace (tail ++ [])) = [] := h.skip nofun
  rw [List.append_nil] at hskip
  rw [lineEnd?, hskip]

theorem isBlank_nil : IsBlank [] := List.forall_mem_nil _

theorem IsComment.isTail (h : IsComment comment) : IsTail comment :=
  show IsTail ([] ++ comment) from .mk isBlank_nil h

theorem skipLines_line (h : IsTail tail) (hnewline : IsNewline newline) (rest : List Char)
    (fuel : Nat) : skipLines (fuel + 1) (tail ++ (newline ++ rest)) = skipLines fuel rest := by
  obtain ⟨hblank, hcomment⟩ := h
  rw [skipLines, List.append_assoc, skipSpace_append hblank,
    hcomment.skipSpace (hnewline.head (by decide) (by decide) rest)]
  cases hcomment with
  | none =>
      cases hnewline with
      | feed => rfl
      | returnFeed => rfl
  | some visible =>
      have hend := lineEnd?_of_isNewline (IsComment.some visible).isTail hnewline rest
      change lineEnd? ('#' :: _ ++ (newline ++ rest)) >>= _ = _
      rw [hend]
      rfl

/-- What is neither blank nor the beginning of a comment nor the end of a line. -/
def IsSaying (rest : List Char) : Prop :=
  ∀ c ∈ rest.head?, ¬isSpace c ∧ c ≠ '#' ∧ c ≠ '\n' ∧ c ≠ '\r'

/-- What remains when nothing is left to skip, whatever blanks are in front. -/
def SkipsTo (rest behind : List Char) : Prop :=
  ∀ (blank : List Char) (fuel : Nat), IsBlank blank → (blank ++ rest).length ≤ fuel →
    skipLines fuel (blank ++ rest) = some behind

theorem IsSaying.skipsTo (h : IsSaying rest) : SkipsTo rest rest := by
  intro blank fuel hblank hfuel
  cases fuel with
  | zero =>
      obtain ⟨rfl, rfl⟩ := List.append_eq_nil_iff.mp
        (List.length_eq_zero_iff.mp (Nat.le_zero.mp hfuel))
      rfl
  | succ fuel =>
      rw [skipLines, skipSpace_append hblank, skipSpace_of_head fun c hc => (h c hc).1]
      split
      · exact absurd rfl (h '#' rfl).2.1
      · exact absurd rfl (h '\n' rfl).2.2.1
      · exact absurd rfl (h '\r' rfl).2.2.2
      · rfl

theorem skipsTo_nil : SkipsTo [] [] := by
  refine IsSaying.skipsTo ?_
  rintro c ⟨⟩

theorem IsComment.skipsTo (h : IsComment comment) : SkipsTo comment [] := by
  intro blank fuel hblank hfuel
  cases h with
  | none => exact skipsTo_nil blank fuel hblank hfuel
  | @some cs visible =>
      have hend := lineEnd?_of_isTail (IsComment.some visible).isTail
      rw [List.length_append, List.length_cons] at hfuel
      obtain ⟨fuel, rfl⟩ : ∃ n, fuel = n + 1 := ⟨fuel - 1, by omega⟩
      rw [skipLines, skipSpace_append hblank, skipSpace_of_head (by rintro c ⟨⟩; decide)]
      change lineEnd? ('#' :: cs) >>= _ = _
      rw [hend]
      exact skipsTo_nil [] fuel isBlank_nil (Nat.zero_le _)

/-- Lines that say nothing are skipped. -/
theorem skipLines_of_isGap {behind : List Char} (h : IsGap gap) (hrest : SkipsTo rest behind)
    {fuel : Nat} (hfuel : (gap ++ rest).length ≤ fuel) :
    skipLines fuel (gap ++ rest) = some behind := by
  induction h generalizing fuel with
  | blank blanks => exact hrest _ _ blanks hfuel
  | @line tail newline others silent ends _ ih =>
      have hpos : 0 < newline.length := by
        cases ends <;> simp
      simp only [List.append_assoc, List.length_append] at hfuel ih ⊢
      obtain ⟨fuel, rfl⟩ : ∃ n, fuel = n + 1 := ⟨fuel - 1, by omega⟩
      rw [skipLines_line silent ends]
      exact ih (by omega)

end

/-! ### Lines -/

section

variable {line : Line} {tail newline form rest : List Char}

theorem EndsValue.of_isTail (h : IsTail tail) (hrest : EndsValue rest) :
    EndsValue (tail ++ rest) := by
  obtain ⟨hblank, hcomment⟩ := h
  rename_i blank comment
  cases blank with
  | cons c blank =>
      rintro d ⟨⟩
      have hspace := hblank c List.mem_cons_self
      simp only [isSpace, Bool.or_eq_true, beq_iff_eq] at hspace
      obtain rfl | rfl := hspace <;> decide
  | nil =>
      cases hcomment with
      | none => exact hrest
      | some _ =>
          rintro d ⟨⟩
          decide

theorem endsValue_of_isNewline (h : IsNewline newline) (rest : List Char) :
    EndsValue (newline ++ rest) :=
  h.head (by decide) (by decide) rest

theorem IsLine.head_ne (h : IsLine line form) {d : Char} (hd : beginsKey d = false) (hd' : d ≠ '[')
    (rest : List Char) : ∀ c ∈ (form ++ rest).head?, c ≠ d := by
  cases h with
  | header _ _ _ =>
      rintro c ⟨⟩
      exact Ne.symm hd'
  | entry named _ _ _ =>
      obtain ⟨c, cs, rfl, hne⟩ := named.exists_cons
      rintro c ⟨⟩
      exact hne d hd

theorem IsLine.isSaying (h : IsLine line form) (rest : List Char) : IsSaying (form ++ rest) := by
  intro c hc
  have hspace := h.head_ne (d := ' ') (by decide) (by decide) rest c hc
  have htab := h.head_ne (d := '\t') (by decide) (by decide) rest c hc
  refine ⟨by simp [isSpace, hspace, htab], ?_, ?_, ?_⟩
  · exact h.head_ne (by decide) (by decide) rest c hc
  · exact h.head_ne (by decide) (by decide) rest c hc
  · exact h.head_ne (by decide) (by decide) rest c hc

theorem IsValue.head_not_isSpace {item : Item} {value : List Char} (h : IsValue item value)
    (hrest : EndsValue rest) : ∀ c ∈ (value ++ rest).head?, ¬isSpace c := by
  cases h with
  | text spelled =>
      obtain ⟨others, rfl | rfl⟩ := spelled.exists_cons
      · rintro c ⟨⟩
        decide
      · rintro c ⟨⟩
        decide
  | integer spelled _ =>
      intro c hc hspace
      have hhead := (readsWhole_of_isInteger spelled hrest).head c hc
      simp only [isSpace, Bool.or_eq_true, beq_iff_eq] at hspace
      obtain rfl | rfl := hspace <;>
        (revert hhead; decide)

theorem entry?_of_isLine {key : String} {item : Item} {name before behind value : List Char}
    (hname : IsKey key name) (hbefore : IsBlank before) (hbehind : IsBlank behind)
    (hvalue : IsValue item value) (hrest : EndsValue rest) (fuel depth : Nat) :
    entry? (fuel + 2) depth (name ++ (before ++ '=' :: (behind ++ (value ++ rest)))) =
      some (([], key, item), rest) := by
  have hskip : skipSpace (behind ++ (value ++ rest)) = value ++ rest := by
    rw [skipSpace_append hbehind, skipSpace_of_head (hvalue.head_not_isSpace hrest)]
  have hkey := key?_of_isKey isBlank_nil hname hbefore (Or.inl rfl) 78
    (behind ++ (value ++ rest))
  rw [List.nil_append] at hkey
  unfold entry?
  rw [depthLimit, hkey]
  simp only [Option.bind_eq_bind, Option.bind_some, char?, if_true]
  rw [hskip, value?_of_isValue hvalue hrest fuel depth]
  rfl

theorem IsBlank.head_ne_bracket {key : String} {before name : List Char} (h : IsBlank before)
    (hname : IsKey key name) (rest : List Char) :
    ∀ c ∈ (before ++ (name ++ rest)).head?, c ≠ '[' := by
  cases before with
  | nil =>
      obtain ⟨c, cs, rfl, hne⟩ := hname.exists_cons
      rintro d ⟨⟩
      exact hne '[' (by decide)
  | cons c before =>
      rintro d ⟨⟩ rfl
      have hspace := h '[' List.mem_cons_self
      revert hspace
      decide

/-- Every line is read from each of its forms. -/
theorem line?_of_isLine (h : IsLine line form) (hrest : EndsValue rest) :
    line? (form ++ rest) = some (line, rest) := by
  cases h with
  | @header key before name behind leading named trailing =>
      have hkey := key?_of_isKey leading named trailing (Or.inr rfl) 78 rest
      simp only [List.cons_append, List.append_assoc, List.nil_append]
      rw [line?, depthLimit, hkey]
      · simp only [Option.bind_eq_bind, Option.bind_some, char?, if_true]
        rfl
      · intro others heq
        have hbracket := leading.head_ne_bracket named (behind ++ ']' :: rest)
        rw [heq] at hbracket
        exact hbracket '[' rfl rfl
  | @entry key item name before behind value named trailing leading told =>
      have hentry := entry?_of_isLine named trailing leading told hrest
        (4 * (name ++ (before ++ '=' :: (behind ++ (value ++ rest)))).length + 2) depthLimit
      simp only [List.append_assoc, List.cons_append]
      obtain ⟨c, cs, rfl, hne⟩ := named.exists_cons
      have hbracket := hne '[' (by decide)
      rw [List.cons_append] at hentry ⊢
      rw [line?, hentry]
      · rfl
      · intro _ heq
        exact hbracket (List.cons.inj heq).1
      · intro _ heq
        exact hbracket (List.cons.inj heq).1

end

theorem IsLine.length_pos {line : Line} {form : List Char} (h : IsLine line form) :
    0 < form.length := by
  cases h with
  | header _ _ _ => exact Nat.succ_pos _
  | entry _ _ _ _ =>
      simp only [List.length_append, List.length_cons]
      omega

theorem IsLine.append_ne_nil {line : Line} {form : List Char} (h : IsLine line form)
    (rest : List Char) : form ++ rest ≠ [] := fun heq =>
  List.ne_nil_of_length_pos h.length_pos (List.append_eq_nil_iff.mp heq).1

/-- Every document is read from each of its forms, line by line. -/
theorem lines?_of_isDocument {lines : List Line} {cs : List Char} (h : IsDocument lines cs)
    {fuel : Nat} (hfuel : cs.length < fuel) : lines? fuel cs = some lines := by
  induction h generalizing fuel with
  | empty silent remark =>
      obtain ⟨fuel, rfl⟩ : ∃ n, fuel = n + 1 := ⟨fuel - 1, by omega⟩
      have hskip := skipLines_of_isGap silent remark.skipsTo (Nat.le_refl _)
      rw [lines?, hskip]
      rfl
  | @last line gap form tail silent spelled trailing =>
      obtain ⟨fuel, rfl⟩ : ∃ n, fuel = n + 2 := by
        have := spelled.length_pos
        simp only [List.length_append] at hfuel
        exact ⟨fuel - 2, by omega⟩
      have hskip := skipLines_of_isGap silent (spelled.isSaying tail).skipsTo (Nat.le_refl _)
      have hends : EndsValue (tail ++ []) := EndsValue.of_isTail trailing (by rintro c ⟨⟩)
      rw [List.append_nil] at hends
      rw [lines?, hskip]
      simp only [Option.bind_eq_bind, Option.bind_some, if_neg (spelled.append_ne_nil tail),
        line?_of_isLine spelled hends, lineEnd?_of_isTail trailing]
      rfl
  | @next line lines gap form tail newline others silent spelled trailing ends _ ih =>
      have hpos := spelled.length_pos
      simp only [List.length_append] at hfuel
      obtain ⟨fuel, rfl⟩ : ∃ n, fuel = n + 1 := ⟨fuel - 1, by omega⟩
      have hskip := skipLines_of_isGap silent
        (spelled.isSaying (tail ++ (newline ++ others))).skipsTo (Nat.le_refl _)
      have hends := EndsValue.of_isTail trailing (endsValue_of_isNewline ends others)
      rw [lines?, hskip]
      simp only [Option.bind_eq_bind, Option.bind_some, if_neg (spelled.append_ne_nil _),
        line?_of_isLine spelled hends, lineEnd?_of_isNewline trailing ends,
        ih (show others.length < fuel by omega)]
      rfl

/-! ### Tables -/

/-- The lines of entries whose keys have no dots. -/
def entryLines (entries : Entries) : List Line :=
  entries.map fun e => .entry [] e.1 e.2

/-- The lines of a table with its header. -/
def tableLines (t : String × Entries) : List Line :=
  .header ⟨false, [t.1]⟩ :: entryLines t.2

/-- A table as an entry of a document. -/
def tableEntry (t : String × Entries) : String × Item := (t.1, .table .header t.2)

/-- Entries whose keys have no dots, as a section holds them. -/
def flatEntries (entries : Entries) : List (List String × String × Item) :=
  entries.map fun e => ([], e.1, e.2)

section

variable {entries table : Entries} {tables : List (String × Entries)}

theorem lookup_eq_none {key : String} (h : key ∉ entries.map Prod.fst) :
    entries.lookup key = none := by
  rw [List.lookup_eq_none_iff]
  intro e he
  have hne : key ≠ e.1 := by
    rintro rfl
    exact h (List.mem_map_of_mem he)
  simpa using hne

theorem addEntry_new {key : String} {item : Item} (h : key ∉ entries.map Prod.fst) :
    addEntry entries ([], key, item) = some (entries ++ [(key, item)]) := by
  rw [addEntry, changeAt, lookup_eq_none h]
  rfl

theorem not_mem_and_nodup_of_nodup_append_cons {α : Type} {first others : List α} {a : α}
    (h : (first ++ a :: others).Nodup) : a ∉ first ∧ (first ++ [a] ++ others).Nodup := by
  refine ⟨fun hmem => ?_, by rwa [List.append_assoc]⟩
  exact (List.nodup_append.mp h).2.2 _ hmem _ List.mem_cons_self rfl

theorem addEntries_new (h : (table.map Prod.fst ++ entries.map Prod.fst).Nodup) :
    addEntries table (flatEntries entries) = some (table ++ entries) := by
  induction entries generalizing table with
  | nil =>
      rw [List.append_nil]
      rfl
  | cons e entries ih =>
      obtain ⟨hnew, hothers⟩ := not_mem_and_nodup_of_nodup_append_cons h
      have htable : ((table ++ [e]).map Prod.fst ++ entries.map Prod.fst).Nodup := by
        rw [List.map_append]
        exact hothers
      rw [List.append_cons, ← ih htable, addEntries, flatEntries, List.map_cons, List.foldlM_cons,
        addEntry_new hnew]
      rfl

theorem addSection_new {t : String × Entries} (hnew : t.1 ∉ entries.map Prod.fst)
    (ht : (t.2.map Prod.fst).Nodup) :
    addSection entries ⟨⟨false, [t.1]⟩, flatEntries t.2⟩ = some (entries ++ [tableEntry t]) := by
  have hentries : addEntries [] (flatEntries t.2) = some t.2 := addEntries_new ht
  simp only [addSection, List.dropLast_singleton, List.getLastD_cons, List.getLastD_nil, changeAt,
    lookup_eq_none hnew, hentries]
  rfl

theorem sections_entryLines (entries : Entries) (lines : List Line) :
    sections (entryLines entries ++ lines) =
      (flatEntries entries ++ (sections lines).1, (sections lines).2) := by
  induction entries with
  | nil => rfl
  | cons e entries ih =>
      rw [entryLines, List.map_cons, List.cons_append, sections]
      rw [entryLines] at ih
      rw [ih]
      rfl

theorem sections_tableLines (tables : List (String × Entries)) :
    sections (tables.flatMap tableLines) =
      ([], tables.map fun t => ⟨⟨false, [t.1]⟩, flatEntries t.2⟩) := by
  induction tables with
  | nil => rfl
  | cons t tables ih =>
      rw [List.flatMap_cons, tableLines, List.cons_append, sections, sections_entryLines, ih,
        List.append_nil, List.map_cons]

theorem foldlM_addSection_new (h : (entries.map Prod.fst ++ tables.map Prod.fst).Nodup)
    (htables : ∀ t ∈ tables, (t.2.map Prod.fst).Nodup) :
    (tables.map fun t => (⟨⟨false, [t.1]⟩, flatEntries t.2⟩ : Section)).foldlM addSection entries =
      some (entries ++ tables.map tableEntry) := by
  induction tables generalizing entries with
  | nil =>
      rw [List.map_nil, List.map_nil, List.append_nil]
      rfl
  | cons t tables ih =>
      obtain ⟨hnew, hothers⟩ := not_mem_and_nodup_of_nodup_append_cons h
      rw [List.forall_mem_cons] at htables
      have hentries : ((entries ++ [tableEntry t]).map Prod.fst ++ tables.map Prod.fst).Nodup := by
        rw [List.map_append]
        exact hothers
      rw [List.map_cons, List.map_cons, List.append_cons, List.foldlM_cons,
        addSection_new hnew htables.1]
      exact ih hentries htables.2

/-- Entries and tables are built from their lines, if nothing is told twice. -/
theorem build_tableLines (h : (entries.map Prod.fst ++ tables.map Prod.fst).Nodup)
    (htables : ∀ t ∈ tables, (t.2.map Prod.fst).Nodup) :
    build (entryLines entries ++ tables.flatMap tableLines) =
      some (entries ++ tables.map tableEntry) := by
  have hentries : addEntries [] (flatEntries entries) = some entries :=
    addEntries_new (List.nodup_append.mp h).1
  rw [build, sections_entryLines, sections_tableLines, List.append_nil]
  dsimp only
  rw [hentries]
  exact foldlM_addSection_new h htables

end

/-! ### Documents -/

section

variable {lines : List Line} {cs : List Char}

/-- What is read of a document: all but a mark of the octet order in front. -/
def behindMark : List Char → List Char
  | '\uFEFF' :: rest => rest
  | cs => cs

theorem read_ofList_eq (cs : List Char) : read (String.ofList cs) =
    match (lines? ((behindMark cs).length + 1) (behindMark cs)).bind build with
    | some entries => .ok entries
    | none => .error .malformed := by
  rw [read, String.toList_ofList]
  rfl

theorem IsBlank.head_append {blank rest : List Char} (h : IsBlank blank) {mark : Char}
    (hmark : ¬isSpace mark) (hrest : ∀ c ∈ rest.head?, c ≠ mark) :
    ∀ c ∈ (blank ++ rest).head?, c ≠ mark := by
  cases blank with
  | nil => exact hrest
  | cons d blank =>
      rintro c ⟨⟩ rfl
      exact hmark (h d List.mem_cons_self)

theorem IsGap.head_append {gap rest : List Char} (h : IsGap gap) {mark : Char}
    (hmark : ¬isSpace mark ∧ mark ∉ ['#', '\n', '\r']) (hrest : ∀ c ∈ rest.head?, c ≠ mark) :
    ∀ c ∈ (gap ++ rest).head?, c ≠ mark := by
  have hne : ∀ c ∈ ['#', '\n', '\r'], c ≠ mark := by
    rintro c hc rfl
    exact hmark.2 hc
  cases h with
  | blank blanks => exact blanks.head_append hmark.1 hrest
  | line silent ends _ =>
      obtain ⟨blanks, remark⟩ := silent
      simp only [List.append_assoc]
      refine blanks.head_append hmark.1 ?_
      cases remark with
      | none => exact ends.head (hne _ (by decide)) (hne _ (by decide)) _
      | some _ =>
          rintro c ⟨⟩
          exact hne '#' (by decide)

theorem IsDocument.ne_mark (h : IsDocument lines cs) (rest : List Char) :
    cs ≠ '\uFEFF' :: rest := by
  have hhead : ∀ c ∈ cs.head?, c ≠ '\uFEFF' := by
    cases h with
    | empty silent remark =>
        refine silent.head_append (by decide) ?_
        cases remark with
        | none =>
            rintro c ⟨⟩
        | some _ =>
            rintro c ⟨⟩
            decide
    | last silent spelled _ =>
        exact silent.head_append (by decide) (spelled.head_ne (by decide) (by decide) _)
    | next silent spelled _ _ _ =>
        exact silent.head_append (by decide) (spelled.head_ne (by decide) (by decide) _)
  rintro rfl
  exact hhead _ rfl rfl

/-- What the lines of a document build is read from each of its forms. -/
theorem read_of_isDocument (h : IsDocument lines cs) {entries : Entries}
    (hbuild : build lines = some entries) : read (String.ofList cs) = .ok entries := by
  have hmark : behindMark cs = cs := by
    rw [behindMark]
    exact h.ne_mark
  rw [read_ofList_eq, hmark, lines?_of_isDocument h (Nat.lt_succ_self _), Option.bind_some, hbuild]

end

end TokenAuthority.Toml

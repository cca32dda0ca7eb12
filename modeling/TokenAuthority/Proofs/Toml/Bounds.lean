import TokenAuthority.Proofs.Except
import TokenAuthority.Proofs.Toml.Grammar
import TokenAuthority.Toml.Record
import Mathlib.Tactic.Common

/-!
# The numbers of a document

A whole number that does not fit in 64 binary digits is refused wherever it stands, so every
whole number in what is read of a document fits: as a value, in an array, in a table between
braces, and in the tables that are built from the lines. The same holds of the numbers that
records take from there.
-/

namespace TokenAuthority.Toml

/-- All whole numbers of an item fit in 64 binary digits. -/
inductive Item.Fits : Item → Prop
  | text {s : String} : Fits (.text s)
  | integer {n : Int} (word : IsWord n) : Fits (.integer n)
  | float {f : Binary64} : Fits (.float f)
  | boolean {b : Bool} : Fits (.boolean b)
  | dateTime : Fits .dateTime
  | array {items : List Item} (inside : ∀ i ∈ items, Fits i) : Fits (.array items)
  | table {origin : Origin} {entries : List (String × Item)} (inside : ∀ e ∈ entries, Fits e.2) :
    Fits (.table origin entries)
  | tables {items : List (List (String × Item))} (inside : ∀ es ∈ items, ∀ e ∈ es, Fits e.2) :
    Fits (.tables items)

/-- All whole numbers of a table fit in 64 binary digits. -/
def Entries.Fit (entries : Entries) : Prop := ∀ e ∈ entries, e.2.Fits

/-! ### Building tables -/

section

variable {entries entries' : Entries} {key : String} {item : Item}

theorem Entries.Fit.append (h : entries.Fit) (hitem : item.Fits) :
    Entries.Fit (entries ++ [(key, item)]) := by
  intro e he
  obtain he | he := List.mem_append.mp he
  · exact h e he
  · rw [List.mem_singleton.mp he]
    exact hitem

theorem Entries.Fit.replace (h : entries.Fit) (hitem : item.Fits) :
    Entries.Fit (replace key item entries) := by
  intro e he
  obtain ⟨e', he', rfl⟩ := List.mem_map.mp he
  split_ifs
  · exact hitem
  · exact h e' he'

theorem Entries.Fit.filter (h : entries.Fit) (p : String × Item → Bool) :
    Entries.Fit (entries.filter p) :=
  fun e he => h e (List.mem_filter.mp he).1

theorem Entries.Fit.lookup (h : entries.Fit) (hlookup : entries.lookup key = some item) :
    item.Fits := by
  obtain ⟨first, others, rfl, -⟩ := List.lookup_eq_some_iff.mp hlookup
  exact h (key, item) (by simp)

theorem fit_nil : Entries.Fit [] := List.forall_mem_nil _

/-- What is changed in a table that fits, by a change that keeps tables fit, fits. -/
theorem fit_of_changeAt {dotted : Bool} {change : Origin → Entries → Option Entries}
    (hchange : ∀ origin es es', Entries.Fit es → change origin es = some es' → Entries.Fit es')
    {path : List String} {origin : Origin} (h : entries.Fit)
    (hchanged : changeAt dotted change path origin entries = some entries') : entries'.Fit := by
  induction path generalizing origin entries entries' with
  | nil => exact hchange origin entries entries' h hchanged
  | cons key path ih =>
      rw [changeAt] at hchanged
      split at hchanged
      · obtain ⟨inner, hinner, hnew⟩ := Option.bind_eq_some_iff.mp hchanged
        cases hnew
        exact h.append (.table (ih fit_nil hinner))
      · rename_i origin inner hlookup
        split_ifs at hchanged
        obtain ⟨inner', hinner, hnew⟩ := Option.bind_eq_some_iff.mp hchanged
        cases hnew
        cases h.lookup hlookup with
        | table inside => exact h.replace (.table (ih inside hinner))
      · rename_i items hlookup
        obtain ⟨last, hlast, hrest⟩ := Option.bind_eq_some_iff.mp hchanged
        obtain ⟨inner', hinner, hnew⟩ := Option.bind_eq_some_iff.mp hrest
        cases hnew
        cases h.lookup hlookup with
        | tables inside =>
            refine h.replace (.tables ?_)
            have hlast' := ih (inside last (List.mem_of_getLast? hlast)) hinner
            intro es hes
            obtain hes | hes := List.mem_append.mp hes
            · exact inside es (List.dropLast_subset _ hes)
            · rw [List.mem_singleton.mp hes]
              exact hlast'
      · cases hchanged

theorem fit_of_addEntry {e : List String × String × Item} (h : entries.Fit) (he : e.2.2.Fits)
    (hadd : addEntry entries e = some entries') : entries'.Fit := by
  refine fit_of_changeAt (fun origin es es' hes hchange => ?_) h hadd
  split_ifs at hchange
  cases hchange
  exact hes.append he

theorem fit_of_addEntries {added : List (List String × String × Item)} (h : entries.Fit)
    (hadded : ∀ e ∈ added, e.2.2.Fits) (hadd : addEntries entries added = some entries') :
    entries'.Fit := by
  induction added generalizing entries with
  | nil =>
      cases hadd
      exact h
  | cons e added ih =>
      rw [List.forall_mem_cons] at hadded
      rw [addEntries, List.foldlM_cons] at hadd
      obtain ⟨entries₁, hfirst, hothers⟩ := Option.bind_eq_some_iff.mp hadd
      exact ih (fit_of_addEntry h hadded.1 hfirst) hadded.2 hothers

end

/-! ### Values -/

/-- What the readers of values, of lists and of entries give fits. -/
structure ReadsFit (fuel : Nat) : Prop where
  value : ∀ {depth cs item rest}, value? fuel depth cs = some (item, rest) → item.Fits
  elements : ∀ {depth cs items rest}, elements? fuel depth cs = some (items, rest) →
    ∀ i ∈ items, Item.Fits i
  pairs : ∀ {depth cs entries rest}, pairs? fuel depth cs = some (entries, rest) →
    ∀ e ∈ entries, Item.Fits e.2.2
  entry : ∀ {depth cs e rest}, entry? fuel depth cs = some (e, rest) → e.2.2.Fits

theorem isWord_of_integer? {n : Int} {cs rest : List Char} (h : integer? cs = some (n, rest)) :
    IsWord n := by
  obtain ⟨⟨n', rest'⟩, -, h⟩ := Option.bind_eq_some_iff.mp h
  dsimp only at h
  split_ifs at h with hword
  cases h
  exact hword

theorem fits_of_value?_succ {fuel depth : Nat} (ih : ReadsFit fuel) {cs rest : List Char}
    {item : Item} (h : value? (fuel + 1) depth cs = some (item, rest)) : item.Fits := by
  unfold value? at h
  split at h
  · cases h
  · cases h
  · obtain ⟨⟨items, behind⟩, hitems, h⟩ := Option.bind_eq_some_iff.mp h
    cases h
    exact .array (ih.elements hitems)
  · dsimp only at h
    split at h
    · cases h
      exact .table fit_nil
    · obtain ⟨⟨pairs, behind⟩, hpairs, h⟩ := Option.bind_eq_some_iff.mp h
      obtain ⟨entries, hentries, h⟩ := Option.bind_eq_some_iff.mp h
      cases h
      exact .table (fit_of_addEntries fit_nil (ih.pairs hpairs) hentries)
  · obtain ⟨⟨s, behind⟩, -, h⟩ := Option.bind_eq_some_iff.mp h
    cases h
    exact .text
  · obtain ⟨⟨s, behind⟩, -, h⟩ := Option.bind_eq_some_iff.mp h
    cases h
    exact .text
  · cases h
    exact .boolean
  · cases h
    exact .boolean
  · split at h
    · cases h
      exact .dateTime
    · split at h
      · cases h
        exact .float
      · split at h
        · cases h
          exact .float
        · obtain ⟨⟨n, behind⟩, hn, h⟩ := Option.bind_eq_some_iff.mp h
          cases h
          exact .integer (isWord_of_integer? hn)

theorem fits_of_elements?_succ {fuel depth : Nat} (ih : ReadsFit fuel) {cs rest : List Char}
    {items : List Item} (h : elements? (fuel + 1) depth cs = some (items, rest)) :
    ∀ i ∈ items, i.Fits := by
  unfold elements? at h
  obtain ⟨cs, -, h⟩ := Option.bind_eq_some_iff.mp h
  split at h
  · cases h
    exact List.forall_mem_nil _
  · obtain ⟨⟨item, behind⟩, hitem, h⟩ := Option.bind_eq_some_iff.mp h
    obtain ⟨behind, -, h⟩ := Option.bind_eq_some_iff.mp h
    obtain ⟨⟨more, behind⟩, -, h⟩ := Option.bind_eq_some_iff.mp h
    dsimp only at h
    split_ifs at h
    · obtain ⟨⟨items, behind⟩, hitems, h⟩ := Option.bind_eq_some_iff.mp h
      cases h
      exact List.forall_mem_cons.mpr ⟨ih.value hitem, ih.elements hitems⟩
    · cases h
      exact List.forall_mem_singleton.mpr (ih.value hitem)

theorem fits_of_pairs?_succ {fuel depth : Nat} (ih : ReadsFit fuel) {cs rest : List Char}
    {entries : List (List String × String × Item)}
    (h : pairs? (fuel + 1) depth cs = some (entries, rest)) : ∀ e ∈ entries, e.2.2.Fits := by
  unfold pairs? at h
  obtain ⟨⟨e, behind⟩, he, h⟩ := Option.bind_eq_some_iff.mp h
  obtain ⟨⟨more, behind⟩, -, h⟩ := Option.bind_eq_some_iff.mp h
  dsimp only at h
  split_ifs at h
  · obtain ⟨⟨others, behind⟩, hothers, h⟩ := Option.bind_eq_some_iff.mp h
    cases h
    exact List.forall_mem_cons.mpr ⟨ih.entry he, ih.pairs hothers⟩
  · cases h
    exact List.forall_mem_singleton.mpr (ih.entry he)

theorem fits_of_entry?_succ {fuel depth : Nat} (ih : ReadsFit fuel) {cs rest : List Char}
    {e : List String × String × Item} (h : entry? (fuel + 1) depth cs = some (e, rest)) :
    e.2.2.Fits := by
  unfold entry? at h
  obtain ⟨⟨keys, behind⟩, -, h⟩ := Option.bind_eq_some_iff.mp h
  obtain ⟨behind, -, h⟩ := Option.bind_eq_some_iff.mp h
  obtain ⟨⟨item, behind⟩, hitem, h⟩ := Option.bind_eq_some_iff.mp h
  cases h
  exact ih.value hitem

/-- Every value is read by readers with less fuel, down to those that give nothing. -/
theorem readsFit (fuel : Nat) : ReadsFit fuel := by
  induction fuel with
  | zero =>
      refine ⟨fun h => ?_, fun h => ?_, fun h => ?_, fun h => ?_⟩
      · rw [value?] at h
        cases h
      · rw [elements?] at h
        cases h
      · rw [pairs?] at h
        cases h
      · unfold entry? at h
        cases h
  | succ fuel ih =>
      exact ⟨fits_of_value?_succ ih, fits_of_elements?_succ ih, fits_of_pairs?_succ ih,
        fits_of_entry?_succ ih⟩

/-! ### Documents -/

/-- The value of a line, if it is an entry, fits. -/
def Line.Fits : Line → Prop
  | .header _ => True
  | .entry _ _ item => item.Fits

theorem fits_of_line? {cs rest : List Char} {line : Line} (h : line? cs = some (line, rest)) :
    line.Fits := by
  unfold line? at h
  split at h
  · obtain ⟨⟨path, behind⟩, -, h⟩ := Option.bind_eq_some_iff.mp h
    obtain ⟨behind, -, h⟩ := Option.bind_eq_some_iff.mp h
    obtain ⟨behind, -, h⟩ := Option.bind_eq_some_iff.mp h
    cases h
    trivial
  · obtain ⟨⟨path, behind⟩, -, h⟩ := Option.bind_eq_some_iff.mp h
    obtain ⟨behind, -, h⟩ := Option.bind_eq_some_iff.mp h
    cases h
    trivial
  · obtain ⟨⟨e, behind⟩, he, h⟩ := Option.bind_eq_some_iff.mp h
    cases h
    exact (readsFit _).entry he

theorem fits_of_lines? {fuel : Nat} {cs : List Char} {lines : List Line}
    (h : lines? fuel cs = some lines) : ∀ line ∈ lines, line.Fits := by
  induction fuel generalizing cs lines with
  | zero => cases h
  | succ fuel ih =>
      rw [lines?] at h
      obtain ⟨cs, -, h⟩ := Option.bind_eq_some_iff.mp h
      dsimp only at h
      split_ifs at h
      · cases h
        exact List.forall_mem_nil _
      · obtain ⟨⟨line, behind⟩, hline, h⟩ := Option.bind_eq_some_iff.mp h
        obtain ⟨behind, -, h⟩ := Option.bind_eq_some_iff.mp h
        obtain ⟨others, hothers, h⟩ := Option.bind_eq_some_iff.mp h
        cases h
        exact List.forall_mem_cons.mpr ⟨fits_of_line? hline, ih hothers⟩

theorem fits_of_sections {lines : List Line} (h : ∀ line ∈ lines, line.Fits) :
    (∀ e ∈ (sections lines).1, e.2.2.Fits) ∧
      ∀ s ∈ (sections lines).2, ∀ e ∈ s.entries, e.2.2.Fits := by
  induction lines with
  | nil => exact ⟨List.forall_mem_nil _, List.forall_mem_nil _⟩
  | cons line lines ih =>
      rw [List.forall_mem_cons] at h
      obtain ⟨hfirst, hothers⟩ := ih h.2
      cases line with
      | header header => exact ⟨List.forall_mem_nil _, List.forall_mem_cons.mpr ⟨hfirst, hothers⟩⟩
      | entry path key item => exact ⟨List.forall_mem_cons.mpr ⟨h.1, hfirst⟩, hothers⟩

theorem fit_of_addSection {entries entries' : Entries} {s : Section} (h : entries.Fit)
    (hs : ∀ e ∈ s.entries, e.2.2.Fits) (hadd : addSection entries s = some entries') :
    entries'.Fit := by
  refine fit_of_changeAt (fun origin es es' hes hchange => ?_) h hadd
  split at hchange
  · obtain ⟨inner, hinner, hnew⟩ := Option.bind_eq_some_iff.mp hchange
    cases hnew
    exact hes.append (.table (fit_of_addEntries fit_nil hs hinner))
  · rename_i given _ hlookup
    obtain ⟨inner, hinner, hnew⟩ := Option.bind_eq_some_iff.mp hchange
    cases hnew
    cases hes.lookup hlookup with
    | table inside => exact (hes.filter _).append (.table (fit_of_addEntries inside hs hinner))
  · obtain ⟨inner, hinner, hnew⟩ := Option.bind_eq_some_iff.mp hchange
    cases hnew
    refine hes.append (.tables ?_)
    exact List.forall_mem_singleton.mpr (fit_of_addEntries fit_nil hs hinner)
  · rename_i items _ hlookup
    obtain ⟨inner, hinner, hnew⟩ := Option.bind_eq_some_iff.mp hchange
    cases hnew
    cases hes.lookup hlookup with
    | tables inside =>
        refine hes.replace (.tables ?_)
        rw [List.forall_mem_append]
        exact ⟨inside, List.forall_mem_singleton.mpr (fit_of_addEntries fit_nil hs hinner)⟩
  · cases hchange

theorem fit_of_build {lines : List Line} (h : ∀ line ∈ lines, line.Fits) {entries : Entries}
    (hbuild : build lines = some entries) : entries.Fit := by
  obtain ⟨hfirst, hothers⟩ := fits_of_sections h
  obtain ⟨first, hadd, hsections⟩ := Option.bind_eq_some_iff.mp hbuild
  have hstart := fit_of_addEntries fit_nil hfirst hadd
  generalize (sections lines).2 = others at hothers hsections
  clear hadd
  induction others generalizing first with
  | nil =>
      cases hsections
      exact hstart
  | cons s others ih =>
      rw [List.forall_mem_cons] at hothers
      rw [List.foldlM_cons] at hsections
      obtain ⟨next, hnext, hrest⟩ := Option.bind_eq_some_iff.mp hsections
      exact ih next (fit_of_addSection hstart hothers.1 hnext) hothers.2 hrest

/-- Every whole number in what is read of a document fits in 64 binary digits. -/
theorem fit_of_read {text : String} {entries : Entries} (h : read text = .ok entries) :
    entries.Fit := by
  rw [read] at h
  split at h
  · rename_i entries' hread
    cases h
    obtain ⟨lines, hlines, hbuild⟩ := Option.bind_eq_some_iff.mp hread
    exact fit_of_build (fits_of_lines? hlines) hbuild
  · cases h

/-! ### Records -/

section

variable {σ : Type} {r : Record σ} {P : σ → Prop}
  (hfield : ∀ f ∈ r.fields, ∀ {draft draft' : σ} {item : Item}, item.Fits → P draft →
    f.read draft item = .ok draft' → P draft')
include hfield

/-- What every field keeps is kept by all entries of a table that fits. -/
theorem Record.invariant_of_ofEntries {es : Entries} (hes : es.Fit) {draft draft' : σ}
    (hdraft : P draft) (h : r.ofEntries draft es = .ok draft') : P draft' := by
  induction es generalizing draft with
  | nil =>
      cases h
      exact hdraft
  | cons e es ih =>
      rw [Entries.Fit, List.forall_mem_cons] at hes
      rw [Record.ofEntries, List.foldlM_cons] at h
      obtain ⟨next, hnext, h⟩ := bind_eq_ok_iff.mp h
      refine ih hes.2 ?_ h
      rw [Record.entry] at hnext
      split at hnext
      · rename_i f hf
        exact hfield f (List.mem_of_find?_eq_some hf) hes.1 hdraft hnext
      · cases hnext
        exact hdraft

theorem Record.invariant_of_ofItems {items : List Item} (hitems : ∀ i ∈ items, i.Fits)
    {draft draft' : σ} (hdraft : P draft) (h : r.ofItems draft items = .ok draft') : P draft' := by
  have hpairs : ∀ p ∈ r.fields.zip items, p.1 ∈ r.fields ∧ p.2.Fits :=
    fun p hp => ⟨(List.of_mem_zip hp).1, hitems _ (List.of_mem_zip hp).2⟩
  rw [Record.ofItems] at h
  generalize r.fields.zip items = pairs at hpairs h
  induction pairs generalizing draft with
  | nil =>
      cases h
      exact hdraft
  | cons p pairs ih =>
      rw [List.forall_mem_cons] at hpairs
      rw [List.foldlM_cons] at h
      obtain ⟨next, hnext, h⟩ := bind_eq_ok_iff.mp h
      exact ih (hfield p.1 hpairs.1.1 hpairs.1.2 hdraft hnext) hpairs.2 h

theorem Record.invariant_of_ofItem {item : Item} (hitem : item.Fits) {draft draft' : σ}
    (hdraft : P draft) (h : r.ofItem draft item = .ok draft') : P draft' := by
  cases hitem with
  | table inside => exact Record.invariant_of_ofEntries hfield inside hdraft h
  | array inside => exact Record.invariant_of_ofItems hfield inside hdraft h
  | tables inside =>
      refine Record.invariant_of_ofItems hfield ?_ hdraft h
      intro i hi
      obtain ⟨es, hes, rfl⟩ := List.mem_map.mp hi
      exact .table (inside es hes)
  | _ => cases h

end

theorem isWord_of_toInteger {item : Item} (hitem : item.Fits) {n : Int}
    (h : item.toInteger = .ok n) : IsWord n := by
  cases hitem with
  | integer word =>
      cases h
      exact word
  | _ => cases h

theorem isWord_of_toCount {item : Item} (hitem : item.Fits) {n : Nat}
    (h : item.toCount = .ok n) : IsWord n := by
  cases hitem with
  | integer word =>
      rw [Item.toCount] at h
      split_ifs at h with hpos
      cases h
      rwa [Int.toNat_of_nonneg hpos]
  | _ => cases h

end TokenAuthority.Toml

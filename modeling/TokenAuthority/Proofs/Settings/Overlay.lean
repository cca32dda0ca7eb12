import TokenAuthority.Proofs.KeyFile.Store
import TokenAuthority.Proofs.Toml.Bounds
import TokenAuthority.Proofs.Toml.Written
import TokenAuthority.Settings.Document
import Mathlib.Data.Set.Basic

/-!
# Settings over their defaults

A document may tell some of the settings, in any order and in any of the forms that a document
can have. What is loaded are these settings as they were told, and the defaults of all others.
So settings that are written are loaded again, and what was loaded from any document at all is
loaded again from the document that it is written to.
-/

namespace TokenAuthority

/-! ### One setting -/

/-- The tables of a document. -/
inductive SettingTable where
  | tokens
  | log
  deriving DecidableEq

/-- The key of a table. -/
def SettingTable.key : SettingTable → String
  | tokens => "token_auth"
  | log => "logging"

theorem SettingTable.key_injective : Function.Injective SettingTable.key := by
  intro t t' h
  cases t <;> cases t' <;> first | rfl | (revert h; decide)

theorem SettingTable.isBare_key (t : SettingTable) : Toml.IsBare t.key := by
  cases t <;> decide

/-- One of the settings. -/
inductive Setting where
  | algorithm
  | store
  | folder
  | capacity
  | lifetime
  | filter
  deriving DecidableEq

namespace Setting

/-- The table that tells a setting. -/
def table : Setting → SettingTable
  | filter => .log
  | _ => .tokens

/-- The key of a setting in its table. -/
def key : Setting → String
  | algorithm => "signature_algorithm"
  | store => "keystore_type"
  | folder => "keystore_path"
  | capacity => "max_in_memory_keys"
  | lifetime => "token_lifetime"
  | filter => "rust_log"

/-- The values of a setting. -/
def Value : Setting → Type
  | algorithm => String
  | store => StoreKind
  | folder => String
  | capacity => Nat
  | lifetime => Int
  | filter => Option String

/-- The value of a setting. -/
def get (c : Settings) : (s : Setting) → s.Value
  | algorithm => c.tokens.algorithm
  | store => c.tokens.store
  | folder => c.tokens.folder
  | capacity => c.tokens.capacity
  | lifetime => c.tokens.lifetime
  | filter => c.log.filter

/-- What a document tells of a setting: nothing of a filter that is not there. -/
def item? (c : Settings) : Setting → Option Toml.Item
  | algorithm => some (.text c.tokens.algorithm)
  | store => some (.text c.tokens.store.name)
  | folder => some (.text c.tokens.folder)
  | capacity => some (.integer c.tokens.capacity)
  | lifetime => some (.integer c.tokens.lifetime)
  | filter => c.log.filter.map .text

/-- Settings with one told as it is in others. -/
def tell (c : Settings) (s : Setting) (d : Settings) : Settings :=
  match s with
  | algorithm => { d with tokens := { d.tokens with algorithm := c.tokens.algorithm } }
  | store => { d with tokens := { d.tokens with store := c.tokens.store } }
  | folder => { d with tokens := { d.tokens with folder := c.tokens.folder } }
  | capacity => { d with tokens := { d.tokens with capacity := c.tokens.capacity } }
  | lifetime => { d with tokens := { d.tokens with lifetime := c.tokens.lifetime } }
  | filter => { d with log := { d.log with filter := c.log.filter } }

theorem ext_get {c c' : Settings} (h : ∀ s, get c s = get c' s) : c = c' := by
  obtain ⟨⟨_, _, _, _, _⟩, ⟨_⟩⟩ := c
  obtain ⟨⟨_, _, _, _, _⟩, ⟨_⟩⟩ := c'
  have halgorithm := h algorithm
  have hstore := h store
  have hfolder := h folder
  have hcapacity := h capacity
  have hlifetime := h lifetime
  have hfilter := h filter
  simp only [get] at halgorithm hstore hfolder hcapacity hlifetime hfilter
  rw [halgorithm, hstore, hfolder, hcapacity, hlifetime, hfilter]

@[simp] theorem get_tell_self (c d : Settings) (s : Setting) : get (s.tell c d) s = get c s := by
  cases s <;> rfl

theorem get_tell_of_ne (c d : Settings) {s s' : Setting} (h : s' ≠ s) :
    get (s.tell c d) s' = get d s' := by
  cases s <;> cases s' <;> first | rfl | exact absurd rfl h

theorem key_injective : Function.Injective key := by
  intro s s' h
  cases s <;> cases s' <;> first | rfl | (revert h; decide)

theorem isBare_key (s : Setting) : Toml.IsBare s.key := by
  cases s <;> decide

end Setting

/-- The numbers fit in 64 binary digits with a sign. -/
structure TokenSettings.Fits (c : TokenSettings) : Prop where
  capacity : Toml.IsWord c.capacity
  lifetime : Toml.IsWord c.lifetime

/-! ### Settings that are told -/

namespace Settings

variable {c d : Settings} {S : Set Setting} {order : List (SettingTable × List Setting)}

/-- The entries that tell settings in an order. -/
def entries (c : Settings) (settings : List Setting) : Toml.Entries :=
  settings.filterMap fun s => (s.item? c).map fun item => (s.key, item)

/-- The tables that tell settings in an order. -/
def tables (c : Settings) (order : List (SettingTable × List Setting)) :
    List (String × Toml.Entries) :=
  order.map fun t => (t.1.key, c.entries t.2)

/-- An order of tables and of the settings in each tells a set of settings: no table and no
setting twice, every setting in its own table, and all that there is to tell of the set. -/
structure InOrder (c : Settings) (S : Set Setting) (order : List (SettingTable × List Setting)) :
    Prop where
  tables : (order.map Prod.fst).Nodup
  settings : ∀ t ∈ order, t.2.Nodup ∧ ∀ s ∈ t.2, s.table = t.1
  all : ∀ s, (s.item? c).isSome → (s ∈ S ↔ s ∈ order.flatMap Prod.snd)

/-- A document that tells a set of settings as they are, in some order and in some form. -/
inductive Tells (c : Settings) (S : Set Setting) (text : String) : Prop
  | mk {order : List (SettingTable × List Setting)} (ordered : c.InOrder S order)
    (document : Toml.IsDocument ((c.tables order).flatMap Toml.tableLines) text.toList) :
    Tells c S text

/-- Settings with those of a list told as they are in others. -/
def tell (c : Settings) (settings : List Setting) (d : Settings) : Settings :=
  settings.foldl (fun d s => if (s.item? c).isSome then s.tell c d else d) d

theorem tell_append (first others : List Setting) (d : Settings) :
    c.tell (first ++ others) d = c.tell others (c.tell first d) :=
  List.foldl_append

theorem get_tell (settings : List Setting) (d : Settings) (s : Setting) :
    s.get (c.tell settings d) =
      if s ∈ settings ∧ (s.item? c).isSome then s.get c else s.get d := by
  induction settings generalizing d with
  | nil => simp [tell]
  | cons s' settings ih =>
      rw [tell, List.foldl_cons, ← tell, ih]
      by_cases hs : s = s'
      · subst hs
        by_cases htold : (s.item? c).isSome <;> simp [htold]
      · by_cases htold : (s'.item? c).isSome <;> simp [htold, hs, Setting.get_tell_of_ne]

theorem get_of_item?_eq_none {s : Setting} (h : s.item? c = none) : s.get c = s.get {} := by
  cases s with
  | filter => exact Option.map_eq_none_iff.mp h
  | _ => cases h

/-! ### Reading the tables -/

/-- Settings with the entries of one table read. -/
def readTable (d : Settings) : SettingTable → Toml.Entries → Except Toml.Error Settings
  | .tokens, es => do return { d with tokens := ← TokenSettings.record.ofEntries d.tokens es }
  | .log, es => do return { d with log := ← LogSettings.record.ofEntries d.log es }

theorem entry_eq_readTable (t : SettingTable) (es : Toml.Entries) :
    record.entry d (t.key, .table .header es) = d.readTable t es := by
  cases t <;> rfl

theorem readTable_cons (t : SettingTable) (e : String × Toml.Item) (es : Toml.Entries) :
    d.readTable t (e :: es) = d.readTable t [e] >>= fun d' => d'.readTable t es := by
  cases t with
  | tokens =>
      rw [readTable, readTable, Toml.Record.ofEntries, Toml.Record.ofEntries, List.foldlM_cons,
        List.foldlM_cons]
      cases TokenSettings.record.entry d.tokens e <;> rfl
  | log =>
      rw [readTable, readTable, Toml.Record.ofEntries, Toml.Record.ofEntries, List.foldlM_cons,
        List.foldlM_cons]
      cases LogSettings.record.entry d.log e <;> rfl

theorem toCount_natCast (n : Nat) : (Toml.Item.integer n).toCount = .ok n := by
  rw [Toml.Item.toCount, if_pos (Int.natCast_nonneg n), Int.toNat_natCast]

/-- A setting that is told is read as it was told. -/
theorem readTable_item {s : Setting} {item : Toml.Item} (h : s.item? c = some item) :
    d.readTable s.table [(s.key, item)] = .ok (s.tell c d) := by
  cases s with
  | algorithm =>
      cases h
      rfl
  | store =>
      cases h
      change d.readTable .tokens [("keystore_type", .text c.tokens.store.name)] =
        .ok { d with tokens := { d.tokens with store := c.tokens.store } }
      cases c.tokens.store <;> rfl
  | folder =>
      cases h
      rfl
  | capacity =>
      cases h
      change ((do return { d.tokens with
        capacity := ← (Toml.Item.integer c.tokens.capacity).toCount }) >>= pure) >>= _ = _
      rw [toCount_natCast]
      rfl
  | lifetime =>
      cases h
      rfl
  | filter =>
      obtain ⟨tokens, ⟨filter⟩⟩ := c
      obtain ⟨f, rfl, rfl⟩ := Option.map_eq_some_iff.mp h
      rfl

theorem readTable_entries {t : SettingTable} {settings : List Setting}
    (h : ∀ s ∈ settings, s.table = t) (d : Settings) :
    d.readTable t (c.entries settings) = .ok (c.tell settings d) := by
  induction settings generalizing d with
  | nil => cases t <;> rfl
  | cons s settings ih =>
      rw [List.forall_mem_cons] at h
      rw [tell, List.foldl_cons, ← tell, entries, ← ih h.2]
      cases hitem : s.item? c with
      | none =>
          rw [List.filterMap_cons_none (by rw [hitem]; rfl)]
          rfl
      | some item =>
          have hread := readTable_item (d := d) hitem
          rw [h.1] at hread
          rw [List.filterMap_cons_some (by rw [hitem]; rfl), readTable_cons, hread]
          rfl

/-- All that the tables tell is read. -/
theorem ofEntries_tables (h : ∀ t ∈ order, ∀ s ∈ t.2, s.table = t.1) (d : Settings) :
    record.ofEntries d ((c.tables order).map Toml.tableEntry) =
      .ok (c.tell (order.flatMap Prod.snd) d) := by
  induction order generalizing d with
  | nil => rfl
  | cons t order ih =>
      rw [List.forall_mem_cons] at h
      have hfirst : record.entry d (t.1.key, .table .header (c.entries t.2)) = _ :=
        (entry_eq_readTable t.1 _).trans (readTable_entries h.1 d)
      rw [tables, List.map_cons, List.map_cons, Toml.tableEntry, Toml.Record.ofEntries,
        List.foldlM_cons, hfirst, List.flatMap_cons, tell_append]
      exact ih h.2 _

theorem keys_entries_sublist (c : Settings) (settings : List Setting) :
    ((c.entries settings).map Prod.fst).Sublist (settings.map Setting.key) := by
  induction settings with
  | nil => exact .slnil
  | cons s settings ih =>
      rw [entries]
      cases hitem : s.item? c with
      | none =>
          rw [List.filterMap_cons_none (by rw [hitem]; rfl)]
          exact ih.cons _
      | some item =>
          rw [List.filterMap_cons_some (by rw [hitem]; rfl)]
          exact ih.cons_cons _

theorem nodup_tables (h : (order.map Prod.fst).Nodup) : ((c.tables order).map Prod.fst).Nodup := by
  have hkeys : (c.tables order).map Prod.fst = (order.map Prod.fst).map SettingTable.key := by
    rw [tables, List.map_map, List.map_map]
    rfl
  rw [hkeys]
  exact h.map SettingTable.key_injective

theorem nodup_entries {settings : List Setting} (h : settings.Nodup) :
    ((c.entries settings).map Prod.fst).Nodup :=
  (keys_entries_sublist c settings).nodup (h.map Setting.key_injective)

/-- What is told is read as it was told, and the rest by default. -/
theorem read_of_tells {text : String} (h : c.Tells S text) :
    ∃ c', read text = .ok c' ∧
      ∀ s : Setting, (s ∈ S → s.get c' = s.get c) ∧ (s ∉ S → s.get c' = s.get {}) := by
  obtain ⟨ordered, document⟩ := h
  rename_i order
  have hnodup : (([] : Toml.Entries).map Prod.fst ++ (c.tables order).map Prod.fst).Nodup :=
    nodup_tables ordered.tables
  have hbuild := Toml.build_tableLines hnodup fun t ht => by
    obtain ⟨t, hmem, rfl⟩ := List.mem_map.mp ht
    exact nodup_entries (ordered.settings t hmem).1
  have hdocument := Toml.read_of_isDocument document hbuild
  rw [String.ofList_toList] at hdocument
  refine ⟨c.tell (order.flatMap Prod.snd) {}, ?_, fun s => ?_⟩
  · rw [read, hdocument]
    exact ofEntries_tables (fun t ht => (ordered.settings t ht).2) {}
  · rw [get_tell]
    cases hitem : s.item? c with
    | none => simp [get_of_item?_eq_none hitem]
    | some item =>
        rw [ordered.all s (by rw [hitem]; rfl)]
        by_cases hs : s ∈ order.flatMap Prod.snd
        · rw [if_pos ⟨hs, rfl⟩]
          exact ⟨fun _ => rfl, fun hs' => absurd hs hs'⟩
        · rw [if_neg fun h => hs h.1]
          exact ⟨fun hs' => absurd hs' hs, fun _ => rfl⟩

/-! ### Writing and reading -/

/-- The order in which settings are written. -/
def writtenOrder : List (SettingTable × List Setting) :=
  [(.tokens, [.algorithm, .store, .folder, .capacity, .lifetime]), (.log, [.filter])]

theorem inOrder_writtenOrder (c : Settings) : c.InOrder Set.univ writtenOrder := by
  refine ⟨by decide, by decide, fun s _ => ?_⟩
  have hmem : s ∈ writtenOrder.flatMap Prod.snd := by
    cases s <;> decide
  exact iff_of_true (Set.mem_univ s) hmem

/-- Settings that are written are all told. -/
theorem tells_write (h : c.tokens.Fits) : c.Tells Set.univ c.write := by
  refine .mk (inOrder_writtenOrder c) ?_
  have hlog : Toml.IsDocument (Toml.tableLines ("logging", c.entries [.filter]))
      (Toml.writeHeader "logging" ++ c.log.write) := by
    obtain ⟨tokens, ⟨filter⟩⟩ := c
    refine Toml.IsDocument.writeHeader ?_ (SettingTable.isBare_key .log)
    cases filter with
    | none => exact Toml.isDocument_nil
    | some f =>
        have hentry := Toml.isDocument_nil.writeTextEntry (Setting.isBare_key .filter) f
        rw [List.append_nil] at hentry
        exact hentry
  have hnumbers := (hlog.newline.writeIntegerEntry (Setting.isBare_key .lifetime)
    h.lifetime).writeIntegerEntry (Setting.isBare_key .capacity) h.capacity
  have htexts := ((hnumbers.writeTextEntry (Setting.isBare_key .folder) c.tokens.folder
    ).writeTextEntry (Setting.isBare_key .store) c.tokens.store.name
    ).writeTextEntry (Setting.isBare_key .algorithm) c.tokens.algorithm
  have htokens := htexts.writeHeader (SettingTable.isBare_key .tokens)
  have hlines : (c.tables writtenOrder).flatMap Toml.tableLines =
      Toml.tableLines
          ("token_auth", c.entries [.algorithm, .store, .folder, .capacity, .lifetime]) ++
        Toml.tableLines ("logging", c.entries [.filter]) := by
    rw [tables, writtenOrder, List.map_cons, List.map_singleton, List.flatMap_cons,
      List.flatMap_singleton]
    rfl
  rw [hlines, write, TokenSettings.write, String.toList_ofList]
  simp only [List.append_assoc, List.cons_append]
  exact htokens

/-- Settings that are written are read back. -/
theorem read_write (h : c.tokens.Fits) : read c.write = .ok c := by
  obtain ⟨c', hread, hsame⟩ := read_of_tells (tells_write h)
  have hc : c' = c := Setting.ext_get fun s => (hsame s).1 (Set.mem_univ s)
  rw [hread, hc]

/-! ### Numbers that are read -/

theorem fits_of_field {f : Toml.Field TokenSettings} (hf : f ∈ TokenSettings.record.fields)
    {draft draft' : TokenSettings} {item : Toml.Item} (hitem : item.Fits) (hdraft : draft.Fits)
    (h : f.read draft item = .ok draft') : draft'.Fits := by
  simp only [TokenSettings.record, List.mem_cons, List.not_mem_nil, or_false] at hf
  obtain rfl | rfl | rfl | rfl | rfl := hf
  · obtain ⟨_, -, hnew⟩ := bind_eq_ok_iff.mp h
    cases hnew
    exact ⟨hdraft.capacity, hdraft.lifetime⟩
  · obtain ⟨_, -, hnew⟩ := bind_eq_ok_iff.mp h
    cases hnew
    exact ⟨hdraft.capacity, hdraft.lifetime⟩
  · obtain ⟨_, -, hnew⟩ := bind_eq_ok_iff.mp h
    cases hnew
    exact ⟨hdraft.capacity, hdraft.lifetime⟩
  · obtain ⟨_, hn, hnew⟩ := bind_eq_ok_iff.mp h
    cases hnew
    exact ⟨Toml.isWord_of_toCount hitem hn, hdraft.lifetime⟩
  · obtain ⟨_, hn, hnew⟩ := bind_eq_ok_iff.mp h
    cases hnew
    exact ⟨hdraft.capacity, Toml.isWord_of_toInteger hitem hn⟩

/-- The numbers in what is read of a document fit. -/
theorem fits_of_read {text : String} (h : read text = .ok c) : c.tokens.Fits := by
  obtain ⟨es, hread, h⟩ := bind_eq_ok_iff.mp h
  have hdefault : ({} : TokenSettings).Fits := by
    constructor <;>
      (rw [Toml.IsWord]; decide)
  refine Toml.Record.invariant_of_ofEntries (P := fun d => d.tokens.Fits) ?_
    (Toml.fit_of_read hread) hdefault h
  intro f hf draft draft' item hitem hdraft hfield
  simp only [record, List.mem_cons, List.not_mem_nil, or_false] at hf
  obtain rfl | rfl := hf
  · obtain ⟨t, ht, hnew⟩ := bind_eq_ok_iff.mp hfield
    cases hnew
    exact Toml.Record.invariant_of_ofItem (fun f => fits_of_field) hitem hdraft ht
  · obtain ⟨t, -, hnew⟩ := bind_eq_ok_iff.mp hfield
    cases hnew
    exact hdraft

/-! ### Loading -/

variable {m m' : Machine} {path text : String}

/-- What is loaded from a file is read of its text, and nothing changes. -/
theorem run_load (h : m.files.read m.here path = .ok (Utf8.encode text)) :
    (load Machine.fileSystem path).run m =
      ((read text).mapError fun e => .conversion (.toml e), m) := by
  rw [load, run_bind_of_run_eq (KeyFile.run_readText path h (Utf8.decode?_encode text))]
  rfl

theorem exists_read_of_run_load (h : (load Machine.fileSystem path).run m = (.ok c, m')) :
    ∃ text, read text = .ok c := by
  rw [load] at h
  cases hread : (Machine.fileSystem.readText path).run m with
  | mk answer m₁ =>
      rw [run_bind_of_run_eq hread] at h
      cases answer with
      | error e => cases h
      | ok text =>
          obtain ⟨hanswer, -⟩ := Prod.mk.inj h
          exact ⟨text, mapError_eq_ok_iff.mp hanswer⟩

/-- A file may tell any of the settings, in any order and form. What is loaded are those as they
were told, and the defaults of the others. Settings that are written are loaded again, and so
is what was loaded from any file and then written. -/
theorem load_overlay (c : Settings) (hfits : c.tokens.Fits) :
    (∀ (S : Set Setting) (text : String), c.Tells S text → ∀ (m : Machine) (path : String),
      m.files.read m.here path = .ok (Utf8.encode text) →
      ∃ c', (load Machine.fileSystem path).run m = (.ok c', m) ∧
        ∀ s : Setting, (s ∈ S → s.get c' = s.get c) ∧ (s ∉ S → s.get c' = s.get {})) ∧
    (∀ (m : Machine) (path : String), m.files.read m.here path = .ok (Utf8.encode c.write) →
      (load Machine.fileSystem path).run m = (.ok c, m)) ∧
    ∀ (m m' : Machine) (path : String) (c' : Settings),
      (load Machine.fileSystem path).run m = (.ok c', m') →
      ∀ (m₁ : Machine) (path₁ : String),
        m₁.files.read m₁.here path₁ = .ok (Utf8.encode c'.write) →
        (load Machine.fileSystem path₁).run m₁ = (.ok c', m₁) := by
  have hwritten : ∀ {c : Settings} {m : Machine} {path : String}, c.tokens.Fits →
      m.files.read m.here path = .ok (Utf8.encode c.write) →
      (load Machine.fileSystem path).run m = (.ok c, m) := by
    intro c m path hfits hfile
    rw [run_load hfile, read_write hfits]
    rfl
  refine ⟨fun S text htells m path hfile => ?_, fun m path => hwritten hfits, ?_⟩
  · obtain ⟨c', hread, hsame⟩ := read_of_tells htells
    refine ⟨c', ?_, hsame⟩
    rw [run_load hfile, hread]
    rfl
  · intro m m' path c' hload m₁ path₁
    obtain ⟨text, hread⟩ := exists_read_of_run_load hload
    exact hwritten (fits_of_read hread)

/-- Settings of which some are told in `partialText`. -/
def partialSettings : Settings where
  tokens := { algorithm := "ES512", store := .plainFile, lifetime := -1000 }
  log := { filter := some "de\"bug" }

/-- A document with comments, both ends of lines, and quotes of several kinds. -/
def partialText : String :=
  "# told\r\n[ 'logging' ]\nrust_log = '''\nde\"bug'''\r\n" ++
    "\n[token_auth] # both\n\ttoken_lifetime=-1_000\n" ++
    "signature_algorithm = \"\"\"ES\\\n  5\\u00312\"\"\" "

/-- The algorithm is told on two lines, with an escape for a digit. -/
theorem exists_isText_algorithm :
    ∃ form, "\"\"\"ES\\\n  5\\u00312\"\"\"".toList = form ∧ Toml.IsText "ES512" form := by
  have hcode : Toml.IsHex 0x31 ['0', '0', '3', '1'] :=
    (((Toml.IsHex.nil.append (d := 0) ⟨by decide, Or.inl rfl⟩).append (d := 0)
      ⟨by decide, Or.inl rfl⟩).append (d := 3) ⟨by decide, Or.inl rfl⟩).append (d := 1)
      ⟨by decide, Or.inl rfl⟩
  have hescape : Toml.IsEscape '1' ['u', '0', '0', '3', '1'] := .four hcode rfl
  have hlast : Toml.IsLines true '"' ['2'] ['2'] :=
    .plain rfl (by decide) (by decide) (.close (n := 0) (by decide))
  have hfirst := Toml.IsLines.plain (c := '5') rfl (by decide) (by decide)
    (.escaped rfl hescape hlast)
  have hspaces : Toml.IsBlankLines [' ', ' '] := .blank rfl (.blank rfl .nil)
  have hlines := Toml.IsLines.plain (c := 'E') rfl (by decide) (by decide)
    (.plain (c := 'S') rfl (by decide) (by decide)
      (.continued rfl Toml.isBlank_nil .feed hspaces (by rintro c ⟨⟩; decide) hfirst))
  exact ⟨_, by decide +kernel, .basicLines (.none (by rintro c ⟨⟩; decide)) hlines⟩

theorem exists_isText_filter :
    ∃ form, "'''\nde\"bug'''".toList = form ∧ Toml.IsText "de\"bug" form := by
  have hlines : Toml.IsLines false '\'' "de\"bug".toList "de\"bug".toList :=
    Toml.isLines_self _ (Toml.forall_mem_of_all (by decide)) 0 (Nat.zero_le 2) (by decide)
  exact ⟨_, by decide +kernel, .literalLines (.newline .feed) hlines⟩

theorem tells_partialText :
    partialSettings.Tells {.algorithm, .lifetime, .filter} partialText := by
  obtain ⟨_, rfl, halgorithm⟩ := exists_isText_algorithm
  obtain ⟨_, rfl, hfilter⟩ := exists_isText_filter
  have htab : Toml.IsBlank ['\t'] := List.forall_mem_singleton.mpr rfl
  have hdigits : Toml.IsDigits Char.isDigit ['1', '0', '0', '0'] ['1', '_', '0', '0', '0'] :=
    .spaced rfl (.next rfl (.next rfl (.last rfl)))
  have hlifetime := Toml.IsInteger.negative (.mk hdigits (by decide))
  have htold : Toml.IsComment ('#' :: " told".toList) := .some (List.all_eq_true.mp (by decide))
  have hboth : Toml.IsComment ('#' :: " both".toList) := .some (List.all_eq_true.mp (by decide))
  have hquoted : Toml.IsQuoted "logging" _ :=
    .literal (Toml.forall_mem_of_all (by decide))
  have hlast := Toml.IsDocument.last Toml.isGap_nil (.entry (.bare (Setting.isBare_key .algorithm))
    Toml.isBlank_space Toml.isBlank_space (.text halgorithm)) (.mk Toml.isBlank_space .none)
  have htokens := Toml.IsDocument.newline (.next Toml.isGap_nil (.header Toml.isBlank_nil
    (.bare (SettingTable.isBare_key .tokens)) Toml.isBlank_nil) (.mk Toml.isBlank_space hboth) .feed
      (.next (.blank htab) (.entry (.bare (Setting.isBare_key .lifetime)) Toml.isBlank_nil
        Toml.isBlank_nil (.integer hlifetime ⟨by decide, by decide⟩)) Toml.isTail_nil .feed hlast))
  have hdocument := Toml.IsDocument.next (.line htold.isTail .returnFeed Toml.isGap_nil)
    (.header Toml.isBlank_space (.quoted hquoted) Toml.isBlank_space) Toml.isTail_nil .feed
    (.next Toml.isGap_nil (.entry (.bare (Setting.isBare_key .filter)) Toml.isBlank_space
      Toml.isBlank_space (.text hfilter)) Toml.isTail_nil .returnFeed htokens)
  have hordered : partialSettings.InOrder {.algorithm, .lifetime, .filter}
      [(.log, [.filter]), (.tokens, [.lifetime, .algorithm])] :=
    ⟨by decide, by decide, fun s _ => by cases s <;> simp⟩
  obtain ⟨cs, htext, hcs⟩ : ∃ cs, partialText.toList = cs ∧ Toml.IsDocument _ cs :=
    ⟨_, by decide +kernel, hdocument⟩
  refine .mk hordered ?_
  rw [htext]
  exact hcs

/-- A machine with one file in its root. -/
def machineWith (name : String) (content : Bytes) : Machine where
  files := (⟨[]⟩ : FileTree).put [name] (.file FileTree.privateMode content)
  here := []
  clock := .epoch
  random _ n := List.replicate n 0
  drawn := 0

/-- The settings that are not told, such as the store, have their defaults. -/
theorem load_overlay_partialText :
    (load Machine.fileSystem "settings").run (machineWith "settings" (Utf8.encode partialText)) =
      (.ok { tokens := { algorithm := "ES512", lifetime := -1000 },
             log := { filter := some "de\"bug" } },
        machineWith "settings" (Utf8.encode partialText)) := by
  have hfits : partialSettings.tokens.Fits := by
    constructor <;>
      (rw [Toml.IsWord]; decide)
  obtain ⟨c', hload, hsame⟩ := (load_overlay partialSettings hfits).1 _ _ tells_partialText
    (machineWith "settings" (Utf8.encode partialText)) "settings" rfl
  rw [hload]
  have hc : c' = { tokens := { algorithm := "ES512", lifetime := -1000 },
                   log := { filter := some "de\"bug" } } := by
    refine Setting.ext_get fun s => ?_
    cases s with
    | algorithm => exact (hsame .algorithm).1 (by simp)
    | store => exact (hsame .store).2 (by simp)
    | folder => exact (hsame .folder).2 (by simp)
    | capacity => exact (hsame .capacity).2 (by simp)
    | lifetime => exact (hsame .lifetime).1 (by simp)
    | filter => exact (hsame .filter).1 (by simp)
  rw [hc]

end Settings

end TokenAuthority

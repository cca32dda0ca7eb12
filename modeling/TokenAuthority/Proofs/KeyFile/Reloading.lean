import TokenAuthority.Proofs.KeyFile.RoundTrip

/-!
# Keys that are loaded from any key file

A load answers with the key of the document in the key file, or it tells what is wrong with the
file; and the key that it answers with is loaded from then on. Where the process cannot go to the
file, a load takes it for absent.
-/

namespace TokenAuthority.KeyFile

open FileTree (checkPath)

variable {f : KeyFile} {k : SigningKey} {a : Algorithm} {h h' : Host} {dir : Place}
  {s : Surroundings Host.Act} {text : String} {c : Contents}

/-! ### What there is to load -/

/-- There is no key file. -/
def Absent (f : KeyFile) (h : Host) : Prop :=
  ∀ dir, h.disk.tree.folderOf h.here f.folder = .ok dir → h.disk.tree.node? (place dir) = none

/-- The process cannot go to the key file, whether or not there is one: its path is not one that
can be followed, or a folder on the way is not to be searched. -/
def Hidden (f : KeyFile) (h : Host) : Prop :=
  checkPath f.path ≠ .ok () ∨
    ∃ dir, h.disk.tree.folderOf h.here f.folder = .ok dir ∧ ¬h.Reaches f.folder dir

/-- The process can go to the key file, and may read it if it is there. -/
structure Opens (f : KeyFile) (h : Host) (dir : Place) : Prop where
  valid : checkPath f.path = .ok ()
  reaches : h.Reaches f.folder dir
  allowed : h.may .read (place dir)

/-- The key file in a folder is a document. -/
def Tells (h : Host) (dir : Place) (d : KeyDocument) : Prop :=
  ∃ mode content text, h.disk.tree.node? (place dir) = some (.file mode content) ∧
    Utf8.decode? content = some text ∧ KeyDocument.read text = .ok d

/-- A key is what a document has for an algorithm. -/
structure Makes (d : KeyDocument) (a : Algorithm) (k : SigningKey) : Prop where
  names : Algorithm.ofName? d.algorithm = some a
  material : d.material a = .ok k.material
  id : ∀ id ∈ d.keyId, k.id = id
  created : ∀ t ∈ d.created, k.created = t
  algorithm : k.algorithm = a
  suits : k.material.checkSuits a = .ok ()

/-- A key file is one document. -/
theorem Tells.unique {d d' : KeyDocument} (ht : Tells h dir d) (ht' : Tells h dir d') : d = d' := by
  obtain ⟨mode, content, text, hn, htext, hd⟩ := ht
  obtain ⟨mode', content', text', hn', htext', hd'⟩ := ht'
  cases hn.symm.trans hn'
  cases htext.symm.trans htext'
  exact Except.ok.inj (hd.symm.trans hd')

/-- A key file that the process cannot go to is taken for absent. -/
theorem isPresent_eq_false_iff (hlink : h.disk.tree.Unlinked h.here f.path) :
    h.isPresent f.path = false ↔ Absent f h ∨ Hidden f h := by
  constructor
  · intro hpresent
    have hplain : h.disk.tree.Unlinked h.here (Path.under f.folder "jwt-key.toml") := hlink
    by_cases hcheck : checkPath f.path = .ok ()
    swap
    · exact Or.inr (Or.inl hcheck)
    by_cases hreaches : ∃ dir, h.disk.tree.folderOf h.here f.folder = .ok dir ∧
        ¬h.Reaches f.folder dir
    · exact Or.inr (Or.inr hreaches)
    refine Or.inl fun dir hdir => ?_
    have hr : h.Reaches f.folder dir := not_not.mp fun hr => hreaches ⟨dir, hdir, hr⟩
    cases hn : h.disk.tree.node? (place dir) with
    | none => rfl
    | some n =>
        have hfind := hr.find isFileName_file hcheck hn fun target heq =>
          hplain.node?_ne_link isFileName_file hcheck hdir target (heq ▸ hn)
        rw [Host.isPresent, path, hfind] at hpresent
        cases hpresent
  · intro hnone
    cases hfind : h.find f.path with
    | error why => rw [Host.isPresent, hfind]; rfl
    | ok found =>
        obtain ⟨hcheck, dir, hr⟩ := Host.exists_reaches_of_find isFileName_file hfind
        obtain habsent | hinvalid | ⟨dir', hdir', hunreached⟩ := hnone
        · rw [path, hr.find_of_none isFileName_file hcheck (habsent dir hr.leads)] at hfind
          cases hfind
        · exact absurd hcheck hinvalid
        · cases hr.leads.symm.trans hdir'
          exact absurd hr hunreached

/-- The text of a key file is the content of a file that the process may read. -/
theorem hasText_iff (hlink : h.disk.tree.Unlinked h.here f.path) :
    HasText Host.fileSystem f h text ↔
      ∃ dir, Opens f h dir ∧ ∃ mode content,
        h.disk.tree.node? (place dir) = some (.file mode content) ∧
          Utf8.decode? content = some text := by
  have hplain : h.disk.tree.Unlinked h.here (Path.under f.folder "jwt-key.toml") := hlink
  constructor
  · rintro ⟨-, content, hread, htext⟩
    change h.read f.path = .ok content at hread
    obtain ⟨⟨p, n⟩, hfound, hread⟩ := bind_eq_ok_iff.mp hread
    obtain ⟨hcheck, dir, hr⟩ := Host.exists_reaches_of_find isFileName_file hfound
    cases hn : h.disk.tree.node? (place dir) with
    | none =>
        rw [path, hr.find_of_none isFileName_file hcheck hn] at hfound
        cases hfound
    | some n' =>
        have hfind := hr.find isFileName_file hcheck hn fun target heq =>
          hplain.node?_ne_link isFileName_file hcheck hr.leads target (heq ▸ hn)
        rw [path, hfind] at hfound
        cases hfound
        dsimp only at hread
        split_ifs at hread with hmay
        cases n with
        | file mode content' =>
            cases hread
            exact ⟨dir, ⟨hcheck, hr, hmay⟩, mode, content, hn, htext⟩
        | folder mode => cases hread
        | link target => cases hread
  · rintro ⟨dir, hopens, mode, content, hn, htext⟩
    obtain ⟨hpresent, hread⟩ := hopens.reaches.read_of_file isFileName_file hopens.valid hn
    rw [if_pos hopens.allowed] at hread
    exact ⟨hpresent, content, hread, htext⟩

theorem HasText.of_layout (ht : HasText Host.fileSystem f h text) (hl : h'.layout = h.layout) :
    HasText Host.fileSystem f h' text := by
  rw [Host.eq_of_layout hl]
  exact ht

/-- A key that is made of a text has what the text tells of it. -/
theorem exists_makes_of_contents (hvalid : contents a text = .ok (some c)) {now : Instant}
    (hmade : SigningKey.ofParts k.id a (c.created.getD now) c.material = .ok k)
    (hid : ∀ id ∈ c.keyId, k.id = id) :
    ∃ d, KeyDocument.read text = .ok d ∧ d.keyId = c.keyId ∧ Makes d a k := by
  obtain ⟨d, hd, hname, hkeyId, hcreated, hmaterial⟩ := exists_document_of_contents hvalid
  obtain ⟨-, ha, hinstant, hparts⟩ := SigningKey.parts_of_ofParts hmade
  refine ⟨d, hd, hkeyId, hname, ?_, fun id hmem => hid id (hkeyId ▸ hmem), fun t ht => ?_, ha, ?_⟩
  · rw [hparts, hmaterial]
  · rw [hcreated] at ht
    rw [hinstant, ht]
    rfl
  · rw [hparts]
    exact suits_of_ofParts hmade

/-! ### Loading -/

/-- On every host with this disk and for the same user, the key is loaded with its identifier,
its algorithm and its material, and the disk is left alone. -/
def Reloads (s : Surroundings Host.Act) (f : KeyFile) (k : SigningKey) (h : Host) : Prop :=
  ∀ h₁ : Host, h₁.layout = h.layout → ∃ k' h₂,
    (f.load s Host.fileSystem k.algorithm).run h₁ = (.ok (some k'), h₂) ∧ k'.id = k.id ∧
      k'.algorithm = k.algorithm ∧ k'.material = k.material ∧ h₂.layout = h₁.layout

/-- What is told of a key that could be loaded from a document. The process may read the file
that a key without an identifier is kept in, unless its draft was the file of another. -/
structure Loaded (s : Surroundings Host.Act) (f : KeyFile) (h h' : Host) (dir : Place)
    (d : KeyDocument) (k : SigningKey) : Prop where
  named : d.keyId ≠ none → h'.layout = h.layout ∧ Reloads s f k h'
  unnamed : d.keyId = none →
    (∃ d', Tells h' dir d' ∧ d'.keyId = some k.id ∧ d'.created = some k.created) ∧
    (h.disk.tree.node? (draftPlace dir) = none ∨ h.owns (draftPlace dir) →
      h'.may .read (place dir)) ∧
    (k.material.FormsRead → h'.may .read (place dir) → Reloads s f k h')

theorem tells_document (hcreated : k.created.OnClock) {mode : Nat}
    (hn : h.disk.tree.node? (place dir) = some (.file mode (document k))) :
    Tells h dir (KeyDocument.ofKey k) := by
  refine ⟨mode, document k, _, hn, Utf8.decode?_encode _, KeyDocument.read_write _ ?_⟩
  rintro t ⟨⟩
  exact hcreated

section

variable (hs : s.Leaves Host.layout) (hlink : h.disk.tree.Unlinked h.here f.path)
include hs hlink

/-- No key is loaded where there is no key file, or where the process cannot go to it, or from a
document for another algorithm. -/
theorem run_load_eq_none_iff {answer : Except AuthError (Option SigningKey)}
    (hrun : (f.load s Host.fileSystem a).run h = (answer, h')) :
    answer = .ok none ↔ Absent f h ∨ Hidden f h ∨
      ∃ dir d b, Opens f h dir ∧ Tells h dir d ∧ Algorithm.ofName? d.algorithm = some b ∧
        b ≠ a := by
  rw [← or_assoc, ← isPresent_eq_false_iff hlink]
  constructor
  · rintro rfl
    cases loading_of_run looks_host hs hrun with
    | absent nothing => exact Or.inl nothing
    | other told foreign =>
        obtain ⟨dir, hopens, mode, content, hn, htext⟩ := (hasText_iff hlink).mp told
        obtain ⟨d, b, hd, hb, hba⟩ := exists_other_of_contents foreign
        exact Or.inr ⟨dir, d, b, hopens, ⟨mode, content, _, hn, htext, hd⟩, hb, hba⟩
  · rintro (hpresent | ⟨dir, d, b, hopens, ⟨mode, content, text, hn, htext, hd⟩, hb, hba⟩)
    · rw [run_load_of_not_isPresent s (run_isPresent_of_looks looks_host hpresent)] at hrun
      cases hrun
      rfl
    · have htold := (hasText_iff hlink).mpr ⟨dir, hopens, mode, content, hn, htext⟩
      have hother : contents a text = .ok none := by
        rw [contents, hd]
        refine bind_eq_ok_iff.mpr ⟨d, rfl, ?_⟩
        rw [hb]
        dsimp only
        rw [if_neg hba]
        rfl
      rw [run_load_of_hasText looks_host s htold, hother] at hrun
      cases hrun
      rfl

/-- A load fails before anything is written, or where the key could not be kept. -/
theorem run_load_eq_error {e : AuthError}
    (hrun : (f.load s Host.fileSystem a).run h = (.error e, h')) :
    (∃ why, e = .configuration why ∧ h'.layout = h.layout) ∨
      ∃ why dir d k h₁, e = .keyStore why ∧ Opens f h dir ∧ Tells h dir d ∧ Makes d a k ∧
        d.keyId = none ∧ h₁.layout = h.layout ∧
        (f.activate Host.fileSystem k).run h₁ = (.error e, h') := by
  cases loading_of_run looks_host hs hrun with
  | unreadable why there => exact Or.inl ⟨_, rfl, rfl⟩
  | corrupt told wrong => exact Or.inl ⟨_, rfl, rfl⟩
  | unsuited told valid unfit same => exact Or.inl ⟨_, rfl, same⟩
  | @unkept text c k h₁ _ _ told valid made unnamed same failed =>
      obtain ⟨why, rfl⟩ := exists_keyStore_of_activate failed
      obtain ⟨dir, hopens, mode, content, hn, htext⟩ := (hasText_iff hlink).mp told
      obtain ⟨d, hd, hkeyId, hmakes⟩ := exists_makes_of_contents valid made (by simp [unnamed])
      exact Or.inr ⟨why, dir, d, k, h₁, rfl, hopens, ⟨mode, content, text, hn, htext, hd⟩, hmakes,
        hkeyId.trans unnamed, same, failed⟩

end

/-- A key that is named by the text is loaded again from every host with this disk. -/
theorem reloads_of_named (hs : s.Leaves Host.layout) (told : HasText Host.fileSystem f h text)
    (valid : contents a text = .ok (some c)) {now : Instant}
    (made : SigningKey.ofParts k.id a (c.created.getD now) c.material = .ok k)
    (named : c.keyId = some k.id) (same : h'.layout = h.layout) : Reloads s f k h' := by
  obtain ⟨-, ha, -, hmaterial⟩ := SigningKey.parts_of_ofParts made
  intro h₁ hl
  obtain ⟨k', h₂, hload, hid, ha', hmaterial', hl'⟩ := exists_run_load_of_named looks_host hs
    (told.of_layout (hl.trans same)) valid named (suits_of_ofParts made)
  exact ⟨k', h₂, ha ▸ hload, hid, ha'.trans ha.symm, hmaterial'.trans hmaterial.symm, hl'⟩

/-- A key that was not named by the text is kept with its name, and loaded again if the process
may read it then. -/
theorem Kept.reloads {mode : Nat} (hk : Kept f k dir h mode) (hs : s.Leaves Host.layout)
    (valid : contents a text = .ok (some c)) {now : Moment}
    (made : SigningKey.ofParts k.id a (c.created.getD now) c.material = .ok k) :
    Tells h dir (KeyDocument.ofKey k) ∧
      (k.material.FormsRead → h.may .read (place dir) → Reloads s f k h) := by
  obtain ⟨-, -, hinstant, hmaterial⟩ := SigningKey.parts_of_ofParts made
  have hcreated : k.created.OnClock := hinstant ▸ onClock_of_contents valid now
  refine ⟨tells_document hcreated hk.file, fun hforms hread h₁ hl => ?_⟩
  rw [hmaterial] at hforms
  have hreads := readsBack_of_contents valid hforms
  rw [← hmaterial] at hreads
  obtain ⟨h₂, hload, hl'⟩ := hk.yields hs hreads hcreated hread h₁ hl k.algorithm
  rw [if_pos rfl] at hload
  exact ⟨k, h₂, hload, rfl, rfl, rfl, hl'⟩

/-- What an activation leaves depends on no more of a host than what surroundings leave of it. -/
theorem exists_kept_of_layout (hsound : h.disk.tree.Sound) (hhere : h.disk.tree.HasFolder h.here)
    (hlink : ∀ path ∈ [f.path, f.draftPath], h.disk.tree.Unlinked h.here path)
    (hr : h.Reaches f.folder dir) {h₁ : Host} (hl : h₁.layout = h.layout)
    (hrun : (f.activate Host.fileSystem k).run h₁ = (.ok (), h')) :
    ∃ mode, Kept f k dir h' mode ∧
      (h.disk.tree.node? (draftPlace dir) = none ∨ h.owns (draftPlace dir) →
        h'.may .read (place dir)) := by
  have hr₁ := hr.of_layout hl
  rw [Host.eq_of_layout hl] at hr₁ hrun
  obtain ⟨dir', mode, hreaches, hkept, hread⟩ :=
    exists_kept_of_activate (by exact hsound) (by exact hhere) (by exact hlink) hrun
  obtain rfl := hr₁.unique hreaches
  exact ⟨mode, hkept, hread⟩

/-- The document of a secret of one octet that has no identifier. -/
def unnamedDocument : KeyDocument :=
  ⟨"HS256", none, none, none, some (Base64.standard.encodeText [0]), none, none⟩

/-- A host with that document for a key file. -/
def unnamedHost : Host :=
  .holding "jwt-key.toml"
    ⟨1000, 1000, .file FileTree.privateMode (Utf8.encode unnamedDocument.write)⟩

/-- The same with a root that only its owner may go through. -/
def hiddenHost : Host :=
  { unnamedHost with disk := { unnamedHost.disk with root := ⟨0, 0, 0o700⟩ } }

/-- The key that is made of the document. -/
def drawnKey : SigningKey :=
  { shortKey with id := Uuid.timed unnamedHost.clock (unnamedHost.random 0 Uuid.randomSize) }

theorem unlinked_unnamedHost : ∀ path ∈ [Machine.keyFile.path, Machine.keyFile.draftPath],
    unnamedHost.disk.tree.Unlinked [] path := by
  have hfile : unnamedHost.disk.tree.spot false true [] Machine.keyFile.path =
      .ok (.taken (place ["keys"])
        (.file FileTree.privateMode (Utf8.encode unnamedDocument.write))) := by rfl
  have hdraft : unnamedHost.disk.tree.spot false true [] Machine.keyFile.draftPath =
      .ok (.free (draftPlace ["keys"])) := by rfl
  simp only [List.forall_mem_cons]
  refine ⟨fun p target hlink => ?_, fun p target hlink => ?_, by simp⟩
  · cases hlink.symm.trans hfile
  · cases hlink.symm.trans hdraft

theorem read_unnamedDocument : KeyDocument.read unnamedDocument.write = .ok unnamedDocument :=
  KeyDocument.read_write _ (by simp [unnamedDocument])

theorem tells_unnamedHost : Tells unnamedHost ["keys"] unnamedDocument :=
  ⟨FileTree.privateMode, _, _, by rfl, Utf8.decode?_encode _, read_unnamedDocument⟩

theorem contents_unnamedDocument :
    contents ⟨.hmac, .sha256⟩ unnamedDocument.write = .ok (some ⟨none, none, .secret [0]⟩) := by
  have hname : Algorithm.ofName? unnamedDocument.algorithm = some ⟨.hmac, .sha256⟩ := by decide
  rw [contents, read_unnamedDocument]
  refine bind_eq_ok_iff.mpr ⟨unnamedDocument, rfl, ?_⟩
  rw [hname]
  dsimp only
  rw [if_pos rfl]
  refine bind_eq_ok_iff.mpr ⟨.secret [0], bind_eq_ok_iff.mpr ⟨[0], ?_, rfl⟩, rfl⟩
  exact KeyDocument.octets_encodeText "key" [0]

theorem run_load_unnamedHost :
    ∃ h', (Machine.keyFile.load Host.surroundings Host.fileSystem ⟨.hmac, .sha256⟩).run
      unnamedHost = (.ok (some drawnKey), h') := by
  have hfile : unnamedHost.read Machine.keyFile.path =
      .ok (Utf8.encode unnamedDocument.write) := by rfl
  have htext : HasText Host.fileSystem Machine.keyFile unnamedHost unnamedDocument.write :=
    ⟨by rfl, _, hfile, Utf8.decode?_encode _⟩
  have hkey : (keyOf Host.surroundings ⟨.hmac, .sha256⟩ ⟨none, none, .secret [0]⟩).run
      unnamedHost = (.ok drawnKey, { unnamedHost with drawn := 1 }) := by rfl
  have hkept : ((Machine.keyFile.activate Host.fileSystem drawnKey).run
      { unnamedHost with drawn := 1 }).1 = .ok () := by rfl
  have hrun := run_load_of_hasText looks_host Host.surroundings htext ⟨.hmac, .sha256⟩
  rw [contents_unnamedDocument] at hrun
  dsimp only at hrun
  rw [hkey] at hrun
  dsimp only at hrun
  rw [if_neg (by simp), run_eq_of_fst_eq hkept] at hrun
  exact ⟨_, hrun⟩

end TokenAuthority.KeyFile

import TokenAuthority.Machine
import TokenAuthority.Proofs.Files.Folder
import TokenAuthority.Proofs.KeyFile.Document
import TokenAuthority.Proofs.Text.Utf8

/-!
# What the key file holds

On a machine whose key file and draft are no links, the key file holds the document of the
key that was activated last, and none once the key is discarded. A key is loaded from there
as it was activated, and only for its own algorithm.
-/

namespace TokenAuthority

/-- Surroundings that leave what is seen of a state alone. -/
def Surroundings.Leaves {σ β : Type} (s : Surroundings (StateM σ)) (view : σ → β) : Prop :=
  (∀ w, view (s.now.run w).2 = view w) ∧ ∀ n w, view ((s.draw n).run w).2 = view w

/-- Surroundings that leave the files of a machine alone. -/
def Surroundings.LeavesFiles (s : Surroundings Machine.Act) : Prop :=
  (∀ m, (s.now.run m).2.files = m.files ∧ (s.now.run m).2.here = m.here) ∧
    ∀ n m, ((s.draw n).run m).2.files = m.files ∧ ((s.draw n).run m).2.here = m.here

theorem run_bind_of_run_eq {σ α β : Type} {x : StateM σ α} {w w' : σ} {a : α}
    (h : x.run w = (a, w')) (g : α → StateM σ β) : (x >>= g).run w = (g a).run w' := by
  rw [StateT.run_bind, h]
  rfl

theorem run_eq_of_fst_eq {σ α : Type} {x : StateM σ α} {w : σ} {a : α} (h : (x.run w).1 = a) :
    x.run w = (a, (x.run w).2) := by
  rw [← h]
  rfl

namespace Machine

/-- What surroundings leave of a machine. -/
def layout (m : Machine) : FileTree × Place := (m.files, m.here)

/-- What is answered of a change, and the machine after it. -/
def changed (m : Machine) : Except FileError FileTree → Except FileError Unit × Machine
  | .ok files => (.ok (), { m with files := files })
  | .error e => (.error e, m)

theorem run_change (f : FileTree → Place → Except FileError FileTree) (m : Machine) :
    (change f).run m = m.changed (f m.files m.here) := by
  unfold change
  rw [StateT.run_bind]
  change StateT.run (match f m.files m.here with
    | .ok files => set { m with files := files } >>= fun _ => pure (Except.ok ())
    | .error e => pure (Except.error e)) m = _
  cases f m.files m.here <;> rfl

theorem run_writePrivate (path : String) (content : Bytes) (m : Machine) :
    (fileSystem.writePrivate path content).run m =
      m.changed (m.files.write m.here path FileTree.privateMode content) :=
  run_change (fun t here => t.write here path FileTree.privateMode content) m

theorem run_rename (source target : String) (m : Machine) :
    (fileSystem.rename source target).run m =
      m.changed (m.files.rename m.here source target) :=
  run_change (fun t here => t.rename here source target) m

theorem run_makePrivate (path : String) (m : Machine) :
    (fileSystem.makePrivate path).run m =
      m.changed (m.files.restrict m.here path FileTree.privateMode) :=
  run_change (fun t here => t.restrict here path FileTree.privateMode) m

theorem run_remove (path : String) (m : Machine) :
    (fileSystem.remove path).run m = m.changed (m.files.remove m.here path) :=
  run_change (fun t here => t.remove here path) m

end Machine

namespace KeyFile

/-- The content of the file of a key. -/
def document (k : SigningKey) : Bytes := Utf8.encode (KeyDocument.ofKey k).write

/-- The folder of a key file is there, with neither folders nor links at the places of the
file and of its draft. -/
structure Home (f : KeyFile) (t : FileTree) (here dir : Place) : Prop where
  sound : t.Sound
  file : t.Leads here f.folder "jwt-key.toml" dir
  draft : t.Leads here f.folder "jwt-key.toml.tmp" dir

/-- The place of the key file. -/
abbrev place (dir : Place) : Place := dir ++ ["jwt-key.toml"]

/-- The place of the draft. -/
abbrev draftPlace (dir : Place) : Place := dir ++ ["jwt-key.toml.tmp"]

/-- The tree with a key file and no draft. -/
def filed (t : FileTree) (dir : Place) (k : SigningKey) : FileTree :=
  (t.erase (draftPlace dir)).put (place dir) (.file FileTree.privateMode (document k))

variable {f : KeyFile} {m m' : Machine} {here dir : Place} {t t' : FileTree} {k : SigningKey}

theorem isFileName_file : Path.IsFileName "jwt-key.toml" :=
  ⟨⟨by decide, by decide, by decide⟩, by decide, by decide⟩

theorem isFileName_draft : Path.IsFileName "jwt-key.toml.tmp" :=
  ⟨⟨by decide, by decide, by decide⟩, by decide, by decide⟩

theorem Home.of_frame?_eq (h : Home f t here dir) (hsound : t'.Sound)
    (hframe : t'.frame? = t.frame?) : Home f t' here dir :=
  ⟨hsound, h.file.of_frame?_eq hframe, h.draft.of_frame?_eq hframe⟩

theorem Home.unlinked (h : Home f t here dir) :
    ∀ path ∈ [f.path, f.draftPath], t.Unlinked here path := by
  simp only [List.forall_mem_cons]
  exact ⟨h.file.unlinked, h.draft.unlinked, by simp⟩

theorem Home.put_file (h : Home f t here dir) (mode : Nat) (content : Bytes) :
    Home f (t.put (place dir) (.file mode content)) here dir :=
  h.of_frame?_eq (h.file.free.sound_put h.sound mode content)
    (h.file.free.frame?_put mode content)

theorem Home.put_draft (h : Home f t here dir) (mode : Nat) (content : Bytes) :
    Home f (t.put (draftPlace dir) (.file mode content)) here dir :=
  h.of_frame?_eq (h.draft.free.sound_put h.sound mode content)
    (h.draft.free.frame?_put mode content)

theorem Home.erase_file (h : Home f t here dir) : Home f (t.erase (place dir)) here dir :=
  h.of_frame?_eq (h.file.free.sound_erase h.sound) (h.file.free.frame?_erase h.sound)

theorem Home.erase_draft (h : Home f t here dir) : Home f (t.erase (draftPlace dir)) here dir :=
  h.of_frame?_eq (h.draft.free.sound_erase h.sound) (h.draft.free.frame?_erase h.sound)

theorem home_filed (h : Home f t here dir) (k : SigningKey) : Home f (filed t dir k) here dir :=
  h.erase_draft.put_file _ _

/-! ### Activation -/

/-- The three steps of an activation, on any file system. The last one may fail. -/
theorem run_activate_eq {σ : Type} (fs : FileSystem (StateM σ)) (f : KeyFile) (k : SigningKey)
    (w : σ) :
    (f.activate fs k).run w =
      match (fs.writePrivate f.draftPath (document k)).run w with
      | (.error e, w₁) => (.error (.keyStore (.cannotWrite f.draftPath e)), w₁)
      | (.ok (), w₁) =>
        match (fs.rename f.draftPath f.path).run w₁ with
        | (.error e, w₂) => (.error (.keyStore (.cannotReplace f.path e)), w₂)
        | (.ok (), w₂) => (.ok (), ((fs.makePrivate f.path).run w₂).2) := by
  have hdocument : Utf8.encode (KeyDocument.ofKey k).write = document k := rfl
  unfold activate
  rw [hdocument, StateT.run_bind]
  obtain ⟨written, w₁⟩ := (fs.writePrivate f.draftPath (document k)).run w
  cases written with
  | error e => rfl
  | ok _ =>
      change StateT.run (fs.rename f.draftPath f.path >>= _) w₁ = _
      rw [StateT.run_bind]
      dsimp only
      obtain ⟨moved, w₂⟩ := (fs.rename f.draftPath f.path).run w₁
      cases moved <;> rfl

/-- An activation fails only because the document could not be written or moved. -/
theorem exists_keyStore_of_activate {σ : Type} {fs : FileSystem (StateM σ)} {w w' : σ}
    {e : AuthError} (h : (f.activate fs k).run w = (.error e, w')) :
    ∃ why, e = .keyStore why := by
  rw [run_activate_eq] at h
  generalize (fs.writePrivate f.draftPath (document k)).run w = written at h
  obtain ⟨written, w₁⟩ := written
  cases written with
  | error why =>
      cases h
      exact ⟨_, rfl⟩
  | ok _ =>
      dsimp only at h
      generalize (fs.rename f.draftPath f.path).run w₁ = moved at h
      obtain ⟨moved, w₂⟩ := moved
      cases moved with
      | error why =>
          cases h
          exact ⟨_, rfl⟩
      | ok _ => cases h

theorem run_activate (f : KeyFile) (k : SigningKey) (m : Machine) :
    (f.activate Machine.fileSystem k).run m =
      match m.files.write m.here f.draftPath FileTree.privateMode (document k) with
      | .error e => (.error (.keyStore (.cannotWrite f.draftPath e)), m)
      | .ok t =>
        match t.rename m.here f.draftPath f.path with
        | .error e => (.error (.keyStore (.cannotReplace f.path e)), { m with files := t })
        | .ok t =>
          match t.restrict m.here f.path FileTree.privateMode with
          | .error _ => (.ok (), { m with files := t })
          | .ok t => (.ok (), { m with files := t }) := by
  rw [run_activate_eq, Machine.run_writePrivate]
  cases m.files.write m.here f.draftPath FileTree.privateMode (document k) with
  | error e => rfl
  | ok t =>
      dsimp only [Machine.changed]
      rw [Machine.run_rename]
      dsimp only
      cases t.rename m.here f.draftPath f.path with
      | error e => rfl
      | ok t' =>
          dsimp only [Machine.changed]
          rw [Machine.run_makePrivate]
          dsimp only
          cases t'.restrict m.here f.path FileTree.privateMode <;> rfl

/-- In its home a key can always be activated. -/
theorem Home.run_activate (h : Home f m.files m.here dir) (k : SigningKey) :
    (f.activate Machine.fileSystem k).run m =
      (.ok (), { m with files := filed m.files dir k }) := by
  obtain ⟨mode, hwrite⟩ := h.draft.exists_write FileTree.privateMode (document k)
  have h₁ := h.put_draft mode (document k)
  have hrename := h₁.draft.rename_of_file h₁.file (by decide)
    (FileTree.node?_put_self m.files FileTree.place_ne_nil (.file mode (document k)))
  have h₂ := h.erase_draft.put_file mode (document k)
  have hrestrict := h₂.file.restrict_of_file
    (FileTree.node?_put_self _ FileTree.place_ne_nil (.file mode (document k)))
    FileTree.privateMode
  rw [FileTree.erase_put] at hrename
  rw [FileTree.put_put] at hrestrict
  rw [KeyFile.run_activate, draftPath, hwrite]
  dsimp only
  rw [path, hrename]
  dsimp only
  rw [hrestrict]
  rfl

/-- Where a key could be activated, the key file has its home. -/
theorem exists_home_of_activate (hsound : m.files.Sound) (hhere : m.files.HasFolder m.here)
    (hlink : ∀ path ∈ [f.path, f.draftPath], m.files.Unlinked m.here path)
    (h : (f.activate Machine.fileSystem k).run m = (.ok (), m')) :
    ∃ dir, Home f m.files m.here dir := by
  have hfile : m.files.Unlinked m.here (Path.under f.folder "jwt-key.toml") :=
    hlink f.path (by simp)
  have hdraft : m.files.Unlinked m.here (Path.under f.folder "jwt-key.toml.tmp") :=
    hlink f.draftPath (by simp)
  rw [run_activate, draftPath, path] at h
  cases hwrite : m.files.write m.here (Path.under f.folder "jwt-key.toml.tmp")
      FileTree.privateMode (document k) with
  | error e =>
      rw [hwrite] at h
      cases h
  | ok t =>
      rw [hwrite] at h
      dsimp only at h
      obtain ⟨dir, hleads⟩ :=
        FileTree.exists_leads_of_write hsound hhere isFileName_draft hdraft hwrite
      obtain ⟨mode, hwrite'⟩ := hleads.exists_write FileTree.privateMode (document k)
      rw [hwrite] at hwrite'
      cases hwrite'
      -- The draft is a file, so the key file is where it was before it was written.
      have hframe := hleads.free.frame?_put mode (document k)
      have hsound' := hleads.free.sound_put hsound mode (document k)
      cases hrename : (m.files.put (draftPlace dir) (.file mode (document k))).rename m.here
          (Path.under f.folder "jwt-key.toml.tmp") (Path.under f.folder "jwt-key.toml") with
      | error e =>
          rw [hrename] at h
          cases h
      | ok t' =>
          have hhere' : (m.files.put (draftPlace dir) (.file mode (document k))).HasFolder
              m.here := FileTree.hasFolder_of_frame?_eq hframe hhere
          obtain ⟨dir', hleads'⟩ := FileTree.exists_leads_of_rename hsound' hhere'
            isFileName_file (hfile.of_frame?_eq isFileName_file hframe) hrename
          have hkey := hleads'.of_frame?_eq hframe.symm
          have hdir := hkey.leads
          rw [hleads.leads] at hdir
          cases hdir
          exact ⟨dir, hsound, hkey, hleads⟩

/-! ### What the key file holds -/

/-- The key file holds the document of a key, or there is no key file. -/
structure Holds (f : KeyFile) (t : FileTree) (here dir : Place) (k? : Option SigningKey) :
    Prop where
  home : Home f t here dir
  content : t.node? (place dir) = k?.map fun k => .file FileTree.privateMode (document k)

theorem Home.holds_filed (h : Home f t here dir) (k : SigningKey) :
    Holds f (filed t dir k) here dir (some k) :=
  ⟨home_filed h k, FileTree.node?_put_self _ FileTree.place_ne_nil _⟩

/-- The key file is discarded, if there is one. -/
theorem Holds.run_discard {k? : Option SigningKey} (h : Holds f m.files m.here dir k?) :
    ∃ t, (f.discard Machine.fileSystem).run m = (.ok (), { m with files := t }) ∧
      Holds f t m.here dir none := by
  have hremove := Machine.run_remove f.path m
  cases k? with
  | none =>
      refine ⟨m.files, ?_, h⟩
      rw [path, h.home.file.remove_of_none h.content] at hremove
      rw [discard, StateT.run_bind, path, hremove]
      rfl
  | some k =>
      refine ⟨m.files.erase (place dir), ?_, h.home.erase_file, ?_⟩
      · rw [path, h.home.file.remove_of_file h.content] at hremove
        rw [discard, StateT.run_bind, path, hremove]
        rfl
      · exact FileTree.node?_erase_self _ FileTree.place_ne_nil

/-! ### Loading -/

section

variable {σ : Type} {fs : FileSystem (StateM σ)} {w : σ}

theorem run_load_of_not_isPresent (s : Surroundings (StateM σ))
    (h : (fs.isPresent f.path).run w = (false, w)) (a : Algorithm) :
    (f.load s fs a).run w = (.ok none, w) := by
  rw [load, run_bind_of_run_eq h]
  rfl

theorem run_readText_of_read {path : String} {bs : Bytes} {text : String}
    (h : (fs.read path).run w = (.ok bs, w)) (htext : Utf8.decode? bs = some text) :
    (fs.readText path).run w = (.ok text, w) := by
  rw [FileSystem.readText, run_bind_of_run_eq h]
  dsimp only
  rw [htext]
  rfl

theorem run_keyOf (s : Surroundings (StateM σ)) (k : SigningKey) (w : σ) :
    (keyOf s k.algorithm ⟨some k.id, some k.created, k.material⟩).run w =
      (.ok k, (s.now.run w).2) := by
  rw [keyOf, StateT.run_bind]
  change ((SigningKey.ofParts k.id k.algorithm k.created k.material).mapError _, _) = _
  rw [ofParts_ofKey]
  rfl

/-- Where the document of a key can be read, the key is loaded for its own algorithm, and none for
another. -/
theorem run_load_of_read (s : Surroundings (StateM σ)) (hmaterial : k.material.ReadsBack)
    (hcreated : k.created.OnClock) (hpresent : (fs.isPresent f.path).run w = (true, w))
    (hread : (fs.read f.path).run w = (.ok (document k), w)) (a : Algorithm) :
    (f.load s fs a).run w =
      if k.algorithm = a then (.ok (some k), (s.now.run w).2) else (.ok none, w) := by
  have htext := run_readText_of_read hread (Utf8.decode?_encode _)
  rw [load, run_bind_of_run_eq hpresent, Bool.not_true, if_neg Bool.false_ne_true,
    run_bind_of_run_eq htext]
  dsimp only
  rw [contents_ofKey hmaterial hcreated]
  by_cases ha : k.algorithm = a
  · subst ha
    rw [if_pos rfl, if_pos rfl]
    dsimp only
    rw [run_bind_of_run_eq (run_keyOf s k w)]
    rfl
  · rw [if_neg ha, if_neg ha]
    rfl

end

variable (s : Surroundings Machine.Act)

theorem run_isPresent (path : String) (m : Machine) :
    (Machine.fileSystem.isPresent path).run m = (m.files.isPresent m.here path, m) := rfl

theorem run_read (path : String) (m : Machine) :
    (Machine.fileSystem.read path).run m = (m.files.read m.here path, m) := rfl

theorem run_load_of_absent (h : m.files.isPresent m.here f.path = false) (a : Algorithm) :
    (f.load s Machine.fileSystem a).run m = (.ok none, m) := by
  refine run_load_of_not_isPresent s ?_ a
  rw [run_isPresent, h]

theorem run_readText (path : String) {bs : Bytes} {text : String}
    (h : m.files.read m.here path = .ok bs) (htext : Utf8.decode? bs = some text) :
    (Machine.fileSystem.readText path).run m = (.ok text, m) := by
  refine run_readText_of_read ?_ htext
  rw [run_read, h]

/-- The key is loaded for its own algorithm, and none for another. -/
theorem run_load_of_document (hmaterial : k.material.ReadsBack) (hcreated : k.created.OnClock)
    (hpresent : m.files.isPresent m.here f.path = true)
    (hread : m.files.read m.here f.path = .ok (document k)) (a : Algorithm) :
    (f.load s Machine.fileSystem a).run m =
      if k.algorithm = a then (.ok (some k), (s.now.run m).2) else (.ok none, m) := by
  refine run_load_of_read s hmaterial hcreated ?_ ?_ a
  · rw [run_isPresent, hpresent]
  · rw [run_read, hread]

/-- Loading from a key file answers with its key, if that is one for the algorithm, and leaves
the files alone. -/
theorem Holds.run_load {s : Surroundings Machine.Act} (hs : s.LeavesFiles) {k? : Option SigningKey}
    (h : Holds f m.files m.here dir k?)
    (hkey : ∀ k ∈ k?, k.material.ReadsBack ∧ k.created.OnClock) (a : Algorithm) :
    ∃ m', (f.load s Machine.fileSystem a).run m =
        (.ok (k?.filter fun k => k.algorithm = a), m') ∧
      m'.files = m.files ∧ m'.here = m.here := by
  cases k? with
  | none =>
      have hpresent := h.home.file.isPresent_of_none h.content
      exact ⟨m, run_load_of_absent s hpresent a, rfl, rfl⟩
  | some k =>
      obtain ⟨hmaterial, hcreated⟩ := hkey k rfl
      have hload := run_load_of_document s hmaterial hcreated
        (h.home.file.isPresent_of_file h.content) (h.home.file.read_of_file h.content) a
      by_cases ha : k.algorithm = a
      · refine ⟨(s.now.run m).2, ?_, hs.1 m⟩
        rw [if_pos ha] at hload
        rw [hload, Option.filter_some, if_pos (decide_eq_true ha)]
      · refine ⟨m, ?_, rfl, rfl⟩
        rw [if_neg ha] at hload
        rw [hload, Option.filter_some, if_neg (by simpa using ha)]

end KeyFile

/-! ### A machine with one folder -/

namespace Machine

theorem leavesFiles_surroundings : surroundings.LeavesFiles :=
  ⟨fun _ => ⟨rfl, rfl⟩, fun _ _ => ⟨rfl, rfl⟩⟩

/-- A machine with a single folder and no files. -/
def withFolder : Machine where
  files := ⟨[(["keys"], .folder FileTree.folderMode)]⟩
  here := []
  clock := .epoch
  random _ n := List.replicate n 0
  drawn := 0

/-- The key file in that folder. -/
def keyFile : KeyFile := ⟨"/keys"⟩

theorem sound_withFolder : withFolder.files.Sound := by
  intro p name n hn
  cases p with
  | nil => exact FileTree.hasFolder_root _
  | cons first rest =>
      have hplace : ((first :: rest ++ [name]) == ["keys"]) = false := by
        cases rest <;> simp
      rw [FileTree.node?, if_neg FileTree.place_ne_nil, withFolder, List.lookup_cons, hplace] at hn
      cases hn

theorem home_withFolder : keyFile.Home withFolder.files withFolder.here ["keys"] :=
  ⟨sound_withFolder,
    ⟨KeyFile.isFileName_file, by rfl, by rfl, ⟨FileTree.folderMode, by rfl⟩, by rfl⟩,
    ⟨KeyFile.isFileName_draft, by rfl, by rfl, ⟨FileTree.folderMode, by rfl⟩, by rfl⟩⟩

end Machine

end TokenAuthority

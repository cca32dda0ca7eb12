import TokenAuthority.Proofs.Files.Change
import TokenAuthority.Proofs.KeyFile.Store

/-!
# Activation in any folder

The document of a key is written first and moved then, and each of the two steps meets
another name of the folder. Writing follows a link at the draft's place, moving takes the link
itself, and nothing takes the place of a folder. So the key file is replaced as a whole unless
the draft is a link, and a folder in its place leaves the document where it was written.
-/

namespace TokenAuthority.KeyFile

variable {f : KeyFile} {k : SigningKey} {m m' : Machine} {dir here : Place} {t t' : FileTree}

/-- The key file is that of a key, there is no draft, and all else is as it was. -/
structure Replaced (dir : Place) (k : SigningKey) (t t' : FileTree) : Prop where
  file : t'.node? (place dir) = some (.file FileTree.privateMode (document k))
  draft : t'.node? (draftPlace dir) = none
  other : ∀ p, p ≠ place dir → p ≠ draftPlace dir → t'.node? p = t.node? p

theorem place_ne_draftPlace : place dir ≠ draftPlace dir := by
  simp

theorem replaced_filed (hsound : t.Sound) (hdraft : ¬t.HasFolder (draftPlace dir))
    (k : SigningKey) : Replaced dir k t (filed t dir k) where
  file := FileTree.node?_put_self _ FileTree.place_ne_nil _
  draft := by
    rw [filed, FileTree.node?_put _ FileTree.place_ne_nil, if_neg place_ne_draftPlace.symm,
      FileTree.node?_erase_self _ FileTree.place_ne_nil]
  other p hfile hother := by
    rw [filed, FileTree.node?_put _ FileTree.place_ne_nil, if_neg hfile,
      hsound.node?_erase_of_ne hdraft hother]

/-! ### The way to the key file -/

/-- The way to the folder does not lead through the key file, as none does that is the true
path of a folder. -/
def Apart (f : KeyFile) (t : FileTree) (here : Place) : Prop :=
  ∀ dir, t.folderOf here f.folder = .ok dir →
    (t.put (place dir) (.file FileTree.privateMode [])).folderOf here f.folder = .ok dir

theorem apart_ofNames (hnames : ∀ name ∈ dir, Path.IsFileName name) (hsound : t.Sound)
    (hdir : t.HasFolder dir) : Apart ⟨Path.ofNames dir⟩ t here := by
  have hfolders : ∀ p, p <+: dir → t.HasFolder p := fun p => hsound.hasFolder_of_prefix hdir
  intro dir' hdir'
  rw [FileTree.folderOf_ofNames hnames hfolders] at hdir'
  cases hdir'
  refine FileTree.folderOf_ofNames hnames fun p hp => ?_
  obtain ⟨mode, hmode⟩ := hfolders p hp
  refine ⟨mode, ?_⟩
  rw [FileTree.node?_put _ FileTree.place_ne_nil, if_neg, hmode]
  rintro rfl
  simpa using hp.length_le

/-- The path of the draft goes on where that of the file ends. -/
theorem draftPath_eq (f : KeyFile) : f.draftPath = f.path ++ ".tmp" := by
  have hname : "jwt-key.toml.tmp" = "jwt-key.toml" ++ ".tmp" := by decide
  rw [draftPath, path, Path.under, Path.under, isFileName_file.not_isAbsolute,
    isFileName_draft.not_isAbsolute, hname]
  simp only [Bool.false_eq_true, if_false]
  split_ifs
  · rw [String.append_assoc]
  · simp only [String.append_assoc]

theorem checkPath_path (h : FileTree.checkPath f.draftPath = .ok ()) :
    FileTree.checkPath f.path = .ok () := by
  rw [draftPath_eq] at h
  unfold FileTree.checkPath at h ⊢
  split_ifs at h with hend hempty hlong
  have hpath : f.path ≠ "" := by
    intro hpath
    have hnames : Path.names f.path = Path.names f.folder ++ ["jwt-key.toml"] :=
      Path.names_under isFileName_file
    rw [hpath] at hnames
    have hlength := congrArg List.length hnames
    simp [Path.names] at hlength
  have hsize : Utf8.size f.path ≤ Utf8.size (f.path ++ ".tmp") := by
    rw [Utf8.size, Utf8.size, String.utf8ByteSize_append]
    exact Nat.le_add_right _ _
  rw [if_neg, if_neg hpath, if_neg]
  · omega
  · intro hmem
    apply hend
    simp only [String.toList_append, List.contains_iff_mem, List.mem_append] at hmem ⊢
    exact Or.inl hmem

/-! ### What an activation does -/

/-- All that an activation can do to a machine. -/
inductive Activation (f : KeyFile) (k : SigningKey) (m : Machine) :
    Except AuthError Unit → Machine → Prop
  /-- The document could not be written. -/
  | unwritten (why : FileError) :
      Activation f k m (.error (.keyStore (.cannotWrite f.draftPath why))) m
  /-- A folder stands in the place of the key file, and the document stays where it was
  written. -/
  | unreplaced {dir : Place} {x : FileTree.Spot} {mode mode' : Nat}
      (leads : m.files.folderOf m.here f.folder = .ok dir)
      (standing : m.files.node? (place dir) = some (.folder mode))
      (draft : m.files.spot true true m.here f.draftPath = .ok x) :
      Activation f k m (.error (.keyStore (.cannotReplace f.path .isFolder)))
        { m with files := m.files.put x.place (.file mode' (document k)) }
  | replaced {dir : Place} (leads : m.files.folderOf m.here f.folder = .ok dir)
      (plain : m.files.Free dir "jwt-key.toml.tmp") :
      Activation f k m (.ok ()) { m with files := filed m.files dir k }
  /-- The draft was a link, which is now in the place of the key file. -/
  | linked {dir : Place} {x : FileTree.Spot} {target : String} {t : FileTree}
      (leads : m.files.folderOf m.here f.folder = .ok dir)
      (link : m.files.node? (draftPlace dir) = some (.link target))
      (draft : m.files.spot true true m.here f.draftPath = .ok x)
      (file : t.node? (place dir) = some (.link target))
      (written : x.place ≠ place dir →
        ∃ mode, t.node? x.place = some (.file mode (document k))) :
      Activation f k m (.ok ()) { m with files := t }

/-- What stands in the place of the key file does not matter to the way there, nor does the
draft, if it is no link. -/
theorem folderOf_moved (hsound : t.Sound) (hplain : t.Free dir "jwt-key.toml.tmp")
    (hway : (t.put (place dir) (.file FileTree.privateMode [])).folderOf here f.folder = .ok dir)
    (mode : Nat) (content : Bytes) :
    ((t.erase (draftPlace dir)).put (place dir) (.file mode content)).folderOf here f.folder =
      .ok dir := by
  refine FileTree.folderWalk_of_frame?_le (fun p n hp => ?_) hway
  obtain ⟨hp, hfile⟩ := FileTree.frame?_eq_some_iff.mp hp
  refine FileTree.frame?_eq_some_iff.mpr ⟨?_, hfile⟩
  rw [FileTree.node?_put _ FileTree.place_ne_nil] at hp ⊢
  split_ifs at hp ⊢ with hplace
  · cases hp
    exact absurd rfl (hfile _ _)
  · rw [hplain.node?_erase_of_ne hsound, hp]
    rintro rfl
    exact hplain.node?_ne hfile hp

/-- A moved document gets its permission bits, as the way to it is still there. -/
theorem restrict_moved (hsound : t.Sound) (hplain : t.Free dir "jwt-key.toml.tmp")
    (hcheck : FileTree.checkPath f.path = .ok ())
    (hway : (t.put (place dir) (.file FileTree.privateMode [])).folderOf here f.folder = .ok dir)
    (mode : Nat) (k : SigningKey) :
    ((t.erase (draftPlace dir)).put (place dir) (.file mode (document k))).restrict here f.path
      FileTree.privateMode = .ok (filed t dir k) := by
  have hnode : ((t.erase (draftPlace dir)).put (place dir) (.file mode (document k))).node?
      (place dir) = some (.file mode (document k)) :=
    FileTree.node?_put_self _ FileTree.place_ne_nil _
  have hleads : ((t.erase (draftPlace dir)).put (place dir) (.file mode (document k))).Leads here
      f.folder "jwt-key.toml" dir := by
    refine ⟨isFileName_file, hcheck, folderOf_moved hsound hplain hway mode (document k), ?_, ?_⟩
    · obtain ⟨folderMode, hfolder⟩ := hplain.inFolder
      refine ⟨folderMode, ?_⟩
      rw [FileTree.node?_put _ FileTree.place_ne_nil, if_neg (by simp),
        hplain.node?_erase_of_ne hsound (by simp), hfolder]
    · exact FileTree.frame?_eq_none_iff.mpr (Or.inr ⟨_, _, hnode⟩)
  rw [path, hleads.restrict_of_file hnode, FileTree.put_put]
  rfl

theorem not_hasFolder_of_link {p : Place} {target : String} (h : t.node? p = some (.link target)) :
    ¬t.HasFolder p := by
  rintro ⟨mode, hmode⟩
  rw [h] at hmode
  cases hmode

/-- Moving a link takes the link itself, and a document elsewhere stays. -/
theorem node?_moved_link {p : Place} {target : String} {mode : Nat} (hsound : t.Sound)
    (hlink : t.node? (draftPlace dir) = some (.link target))
    (hwritten : t.node? p = some (.file mode (document k)))
    (hbare : ∀ q, (t'.node? q).map FileTree.bare =
      (((t.erase (draftPlace dir)).put (place dir) (.link target)).node? q).map FileTree.bare) :
    t'.node? (place dir) = some (.link target) ∧
      (p ≠ place dir → ∃ mode, t'.node? p = some (.file mode (document k))) := by
  refine ⟨FileTree.node?_eq_link_of_bare (hbare _)
    (FileTree.node?_put_self _ FileTree.place_ne_nil _), fun hne => ?_⟩
  refine FileTree.exists_node?_eq_file_of_bare (hbare p) (Eq.trans ?_ hwritten)
  rw [FileTree.node?_put _ FileTree.place_ne_nil, if_neg hne,
    hsound.node?_erase_of_ne (not_hasFolder_of_link hlink)]
  rintro rfl
  rw [hlink] at hwritten
  cases hwritten

/-- Nothing is lost above what is moved. -/
theorem sound_moved (hsound : t.Sound) (hfolder : t.HasFolder dir)
    (hdraft : ¬t.HasFolder (draftPlace dir)) (hfile : ¬t.HasFolder (place dir)) (n : Node) :
    ((t.erase (draftPlace dir)).put (place dir) n).Sound ∧
      ∀ p, t.HasFolder p → ((t.erase (draftPlace dir)).put (place dir) n).HasFolder p := by
  have hfile' : ¬(t.erase (draftPlace dir)).HasFolder (place dir) := by
    rintro ⟨mode, hmode⟩
    rw [hsound.node?_erase_of_ne hdraft place_ne_draftPlace] at hmode
    exact hfile ⟨mode, hmode⟩
  exact ⟨(hsound.erase hdraft).put (hsound.hasFolder_erase hdraft hfolder) hfile' n,
    fun p hp => (hsound.hasFolder_erase hdraft hp).put hfile' n⟩

/-- The document is written at the draft's place, unless there is a link. -/
theorem link_or_eq_of_spot {folder : Place} {name : String}
    (hcheck : FileTree.checkPath f.draftPath = .ok ())
    (hdir : t.folderOf here f.folder = .ok dir)
    (hdraft : t.spot true true here f.draftPath = .ok (t.under folder name)) :
    (∃ target, t.node? (draftPlace dir) = some (.link target)) ∨
      folder = dir ∧ name = "jwt-key.toml.tmp" := by
  by_cases hlink : ∃ target, t.node? (draftPlace dir) = some (.link target)
  · exact Or.inl hlink
  · right
    have hspot : t.spot true true here f.draftPath = .ok (t.under dir "jwt-key.toml.tmp") := by
      rw [draftPath] at hcheck ⊢
      rw [FileTree.spot_under isFileName_draft, hcheck, hdir]
      · rfl
      · intro _ _ dir' target hdir' htarget
        rw [hdir] at hdir'
        cases hdir'
        exact hlink ⟨target, htarget⟩
    rw [hdraft] at hspot
    have hplace := congrArg FileTree.Spot.place (Except.ok.inj hspot)
    rw [FileTree.place_under, FileTree.place_under] at hplace
    have hname := List.append_inj' hplace rfl
    exact ⟨hname.1, List.head_eq_of_cons_eq hname.2⟩

/-- Whether or not the permission bits could be given, nothing else changes. -/
theorem exists_bare_of_restricted (hsound : t.Sound) (hhere : t.HasFolder here)
    {answer : Except AuthError Unit}
    (h : (match t.restrict here f.path FileTree.privateMode with
      | .error _ => (.ok (), { m with files := t })
      | .ok t' => (.ok (), { m with files := t' })) = (answer, m')) :
    answer = .ok () ∧ ∃ t', m' = { m with files := t' } ∧
      ∀ q, (t'.node? q).map FileTree.bare = (t.node? q).map FileTree.bare := by
  cases hrestrict : t.restrict here f.path FileTree.privateMode with
  | error e =>
      rw [hrestrict] at h
      cases h
      exact ⟨rfl, t, rfl, fun _ => rfl⟩
  | ok t' =>
      rw [hrestrict] at h
      cases h
      exact ⟨rfl, t', rfl, FileTree.bare_of_restrict hsound hhere hrestrict⟩

/-- A link is moved in the place of the key file, and the document is where the link leads. -/
theorem activation_of_link {folder : Place} {name target : String} {mode : Nat}
    (hsound : m.files.Sound) (hhere : m.files.HasFolder m.here)
    (hdir : m.files.folderOf m.here f.folder = .ok dir) (hfree : m.files.Free folder name)
    (hdraft : m.files.spot true true m.here f.draftPath = .ok (m.files.under folder name))
    (hlink : m.files.node? (draftPlace dir) = some (.link target))
    (hwritten : t = m.files.put (folder ++ [name]) (.file mode (document k)))
    (hfile : ¬t.HasFolder (place dir)) {answer : Except AuthError Unit}
    (h : (match ((t.erase (draftPlace dir)).put (place dir) (.link target)).restrict m.here f.path
        FileTree.privateMode with
      | .error _ =>
        (.ok (), { m with files := (t.erase (draftPlace dir)).put (place dir) (.link target) })
      | .ok t' => (.ok (), { m with files := t' })) = (answer, m')) :
    Activation f k m answer m' := by
  have hframe := hfree.frame?_put mode (document k)
  have hsound' := hfree.sound_put hsound mode (document k)
  rw [← hwritten] at hframe hsound'
  have hlink' := FileTree.node?_of_frame?_eq hframe hlink (by simp)
  obtain ⟨hsound₂, hkept⟩ := sound_moved hsound'
    (FileTree.hasFolder_of_frame?_eq hframe (hsound.hasFolder_folderOf hhere hdir))
    (not_hasFolder_of_link hlink') hfile (.link target)
  have hhere₂ := hkept _ (FileTree.hasFolder_of_frame?_eq hframe hhere)
  obtain ⟨rfl, t', rfl, hbare⟩ := exists_bare_of_restricted hsound₂ hhere₂ h
  have hdocument : t.node? (folder ++ [name]) = some (.file mode (document k)) := by
    rw [hwritten]
    exact FileTree.node?_put_self _ FileTree.place_ne_nil _
  obtain ⟨hmoved, hstays⟩ := node?_moved_link hsound' hlink' hdocument hbare
  rw [← FileTree.place_under m.files folder name] at hstays
  exact .linked hdir hlink hdraft hmoved hstays

theorem activation_of_run (hsound : m.files.Sound) (hhere : m.files.HasFolder m.here)
    (hway : f.Apart m.files m.here) {answer : Except AuthError Unit}
    (h : (f.activate Machine.fileSystem k).run m = (answer, m')) :
    Activation f k m answer m' := by
  rw [run_activate] at h
  cases hwrite : m.files.write m.here f.draftPath FileTree.privateMode (document k) with
  | error why =>
      rw [hwrite] at h
      cases h
      exact .unwritten why
  | ok t =>
      rw [hwrite] at h
      dsimp only at h
      obtain ⟨folder, name, mode, hfree, hdraft, hwritten⟩ :=
        FileTree.exists_place_of_write hsound hhere hwrite
      obtain ⟨hcheck, dir, hdir⟩ := FileTree.exists_folderOf_of_spot isFileName_draft hdraft
      have hcheck' := checkPath_path hcheck
      have hkind := link_or_eq_of_spot hcheck hdir hdraft
      have hdocument : t.node? (folder ++ [name]) = some (.file mode (document k)) := by
        rw [hwritten]
        exact FileTree.node?_put_self _ FileTree.place_ne_nil _
      -- The document is no folder and no link, so all ways are as they were.
      have hframe := hfree.frame?_put mode (document k)
      rw [← hwritten] at hframe
      obtain ⟨n, hn, hplain⟩ :
          ∃ n, t.node? (draftPlace dir) = some n ∧ ∀ mode, n ≠ .folder mode := by
        obtain ⟨target, htarget⟩ | ⟨rfl, rfl⟩ := hkind
        · exact ⟨_, FileTree.node?_of_frame?_eq hframe htarget (by simp), by simp⟩
        · exact ⟨_, hdocument, by simp⟩
      obtain ⟨hstay, hmove⟩ := FileTree.rename_under isFileName_draft isFileName_file hcheck
        hcheck' (FileTree.folderOf_of_frame?_eq hframe hdir) (by decide) hn hplain
      by_cases hfile : t.HasFolder (place dir)
      · rw [draftPath, path, hstay hfile] at h
        cases h
        obtain ⟨fileMode, hstanding⟩ := hfile
        rw [hwritten, ← FileTree.place_under m.files folder name]
        exact .unreplaced hdir (FileTree.node?_of_frame?_eq hframe.symm hstanding (by simp)) hdraft
      · rw [draftPath, path, hmove hfile] at h
        dsimp only at h
        obtain ⟨target, htarget⟩ | ⟨rfl, rfl⟩ := hkind
        · cases hn.symm.trans (FileTree.node?_of_frame?_eq hframe htarget (by simp))
          exact activation_of_link hsound hhere hdir hfree hdraft htarget hwritten hfile h
        · cases hn.symm.trans hdocument
          have hrestrict := restrict_moved hsound hfree hcheck' (hway _ hdir) mode k
          rw [hwritten, FileTree.erase_put, ← path, hrestrict] at h
          cases h
          exact .replaced hdir hfree

end TokenAuthority.KeyFile

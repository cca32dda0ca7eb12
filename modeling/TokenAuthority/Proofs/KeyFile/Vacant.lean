import TokenAuthority.Proofs.Authenticator.Run
import TokenAuthority.Proofs.KeyFile.Activation
import TokenAuthority.Proofs.KeyFile.Loading
import TokenAuthority.Proofs.KeyFile.Ring

/-!
# A folder without a key file

A key file is known by the true path of its folder, so the way there is the same from any
working folder. Where the folder has neither a key file nor links in its way, either the key
file has its home there, or no authenticator can be made at all, and nothing is left behind.
-/

namespace TokenAuthority

namespace KeyFile

/-- The key file of a folder that is known by its true path. -/
def inFolder (dir : Place) : KeyFile := ⟨Path.ofNames dir⟩

/-- There is a folder with no key file, and with no link in the place of the key file or of its
draft. -/
structure Vacant (t : FileTree) (dir : Place) : Prop where
  sound : t.Sound
  folder : t.HasFolder dir
  noFile : ∀ mode content, t.node? (place dir) ≠ some (.file mode content)
  noLink : ∀ target, t.node? (place dir) ≠ some (.link target)
  noDraftLink : ∀ target, t.node? (draftPlace dir) ≠ some (.link target)

variable {s : Surroundings Machine.Act} {t : FileTree} {here here' dir : Place} {m m' : Machine}
  {k? : Option SigningKey}

/-! ### The way to the folder -/

theorem folderOf_inFolder (hnames : ∀ name ∈ dir, Path.IsFileName name) (hsound : t.Sound)
    (hdir : t.HasFolder dir) (here : Place) :
    t.folderOf here (inFolder dir).folder = .ok dir :=
  FileTree.folderOf_ofNames hnames fun _ hp => hsound.hasFolder_of_prefix hdir hp

theorem Home.fromAnywhere (hnames : ∀ name ∈ dir, Path.IsFileName name)
    (h : Home (inFolder dir) t here dir) (here' : Place) : Home (inFolder dir) t here' dir := by
  have hleads := folderOf_inFolder hnames h.sound h.file.free.inFolder here'
  exact ⟨h.sound, ⟨h.file.isName, h.file.valid, hleads, h.file.free⟩,
    ⟨h.draft.isName, h.draft.valid, hleads, h.draft.free⟩⟩

theorem Holds.fromAnywhere (hnames : ∀ name ∈ dir, Path.IsFileName name)
    (h : Holds (inFolder dir) t here dir k?) (here' : Place) :
    Holds (inFolder dir) t here' dir k? :=
  ⟨h.home.fromAnywhere hnames here', h.content⟩

theorem Vacant.holds (h : Vacant t dir) (hhome : Home (inFolder dir) t here dir) :
    Holds (inFolder dir) t here dir none := by
  refine ⟨hhome, ?_⟩
  obtain hnode | ⟨mode, content, hnode⟩ := hhome.file.node?_cases
  · exact hnode
  · exact absurd hnode (h.noFile mode content)

/-! ### What stands in the way -/

section

variable (hnames : ∀ name ∈ dir, Path.IsFileName name)
include hnames

theorem Vacant.spot (h : Vacant t dir) {file : String} (hfile : Path.IsFileName file)
    (hlink : ∀ target, t.node? (dir ++ [file]) ≠ some (.link target)) (here : Place)
    (follow : Bool) :
    t.spot follow true here (Path.under (inFolder dir).folder file) = do
      FileTree.checkPath (Path.under (inFolder dir).folder file)
      return t.under dir file := by
  have hleads := folderOf_inFolder hnames h.sound h.folder here
  rw [FileTree.spot_under hfile, hleads]
  · rfl
  · intro _ _ dir' target hdir'
    cases hleads.symm.trans hdir'
    exact hlink target

theorem Vacant.unlinked (h : Vacant t dir) (here : Place) :
    ∀ path ∈ [(inFolder dir).path, (inFolder dir).draftPath], t.Unlinked here path := by
  have hunlinked : ∀ {file : String}, Path.IsFileName file →
      (∀ target, t.node? (dir ++ [file]) ≠ some (.link target)) →
        t.Unlinked here (Path.under (inFolder dir).folder file) := by
    intro file hfile hlink p target hspot
    rw [h.spot hnames hfile hlink] at hspot
    obtain ⟨_, -, hunder⟩ := bind_eq_ok_iff.mp hspot
    rw [FileTree.under] at hunder
    cases hnode : t.node? (dir ++ [file]) with
    | none =>
        rw [hnode] at hunder
        cases hunder
    | some n =>
        rw [hnode] at hunder
        cases hunder
        exact hlink target hnode
  simp only [List.forall_mem_cons]
  exact ⟨hunlinked isFileName_file h.noLink, hunlinked isFileName_draft h.noDraftLink, by simp⟩

theorem Vacant.not_hasText (h : Vacant m.files dir) {text : String} :
    ¬HasText Machine.fileSystem (inFolder dir) m text := by
  rintro ⟨-, bs, hread, -⟩
  change m.files.read m.here (inFolder dir).path = .ok bs at hread
  rw [FileTree.read, FileTree.find, path, h.spot hnames isFileName_file h.noLink] at hread
  obtain ⟨found, hfound, hread⟩ := bind_eq_ok_iff.mp hread
  obtain ⟨x, hx, hfound⟩ := bind_eq_ok_iff.mp hfound
  obtain ⟨_, -, hunder⟩ := bind_eq_ok_iff.mp hx
  cases hunder
  rw [FileTree.under] at hfound
  cases hnode : m.files.node? (dir ++ ["jwt-key.toml"]) with
  | none =>
      rw [hnode] at hfound
      cases hfound
  | some n =>
      rw [hnode] at hfound
      cases hfound
      cases n with
      | file mode content => exact h.noFile mode content hnode
      | folder mode => cases hread
      | link target => exact h.noLink target hnode

theorem Vacant.isPresent_of_folder (h : Vacant t dir) (here : Place) {mode : Nat}
    (hcheck : FileTree.checkPath (inFolder dir).path = .ok ())
    (hfolder : t.node? (place dir) = some (.folder mode)) :
    t.isPresent here (inFolder dir).path = true := by
  rw [path] at hcheck ⊢
  rw [FileTree.isPresent, FileTree.find, h.spot hnames isFileName_file h.noLink, hcheck,
    FileTree.under, hfolder]
  rfl

end

/-! ### Making an authenticator -/

/-- Without a home for the key file, no key is loaded. -/
theorem Vacant.loading (hs : s.LeavesFiles) (hnames : ∀ name ∈ dir, Path.IsFileName name)
    (h : Vacant m.files dir) {a : Algorithm} {answer : Except AuthError (Option SigningKey)}
    (hrun : ((inFolder dir).load s Machine.fileSystem a).run m = (answer, m')) :
    m' = m ∧ (answer = .ok none → m.files.isPresent m.here (inFolder dir).path = false) ∧
      ∀ k, answer ≠ .ok (some k) := by
  have hno : ∀ text, ¬HasText Machine.fileSystem (inFolder dir) m text :=
    fun _ => h.not_hasText hnames
  cases loading_of_run looks_machine (leaves_of_leavesFiles hs) hrun with
  | absent nothing => exact ⟨rfl, fun _ => nothing, by simp⟩
  | unreadable why _ => exact ⟨rfl, by simp, by simp⟩
  | corrupt told _ => exact absurd told (hno _)
  | other told _ => exact absurd told (hno _)
  | unsuited told _ _ _ => exact absurd told (hno _)
  | found told _ _ _ _ => exact absurd told (hno _)
  | renamed told _ _ _ _ _ => exact absurd told (hno _)
  | unkept told _ _ _ _ _ => exact absurd told (hno _)

/-- Without a home for the key file, no key is kept, and nothing is written. -/
theorem Vacant.activation (hnames : ∀ name ∈ dir, Path.IsFileName name) (h : Vacant m.files dir)
    (hhere : m.files.HasFolder m.here) (hhome : ¬Home (inFolder dir) m.files m.here dir)
    (habsent : m.files.isPresent m.here (inFolder dir).path = false) {k : SigningKey}
    {answer : Except AuthError Unit}
    (hrun : ((inFolder dir).activate Machine.fileSystem k).run m = (answer, m')) :
    m' = m ∧ answer ≠ .ok () := by
  have hdir := folderOf_inFolder hnames h.sound h.folder m.here
  have hkept : answer ≠ .ok () := by
    rintro rfl
    obtain ⟨dir', hhome'⟩ := exists_home_of_activate h.sound hhere (h.unlinked hnames m.here) hrun
    cases hdir.symm.trans hhome'.file.leads
    exact hhome hhome'
  refine ⟨?_, hkept⟩
  -- A folder in the place of the key file would have been present.
  cases activation_of_run h.sound hhere (apart_ofNames hnames h.sound h.folder) hrun with
  | unwritten why => rfl
  | unreplaced leads standing draft =>
      cases hdir.symm.trans leads
      obtain ⟨hcheck, -⟩ := FileTree.exists_folderOf_of_spot isFileName_draft draft
      rw [h.isPresent_of_folder hnames m.here (checkPath_path hcheck) standing] at habsent
      cases habsent
  | replaced _ _ => exact absurd rfl hkept
  | linked _ _ _ _ _ => exact absurd rfl hkept

/-- Without a home for the key file, no key can be put on offer with success. -/
theorem Vacant.rotation (hs : s.LeavesFiles) (hnames : ∀ name ∈ dir, Path.IsFileName name)
    (h : Vacant m.files dir) (hhere : m.files.HasFolder m.here)
    (hhome : ¬Home (inFolder dir) m.files m.here dir)
    (habsent : m.files.isPresent m.here (inFolder dir).path = false) {r r' : KeyRing}
    {answer : Except AuthError KeyRing.Answer}
    (hstep : KeyRing.Step s ((inFolder dir).store s Machine.fileSystem) r m .rotate answer r' m') :
    (∀ a, answer ≠ .ok a) ∧ m'.files = m.files := by
  have hactivation : ∀ {k : SigningKey} {m₁ : Machine} {kept : Except AuthError Unit},
      KeyRing.Offers s r m .rotate k m₁ →
        ((inFolder dir).activate Machine.fileSystem k).run m₁ = (kept, m') →
          m'.files = m.files ∧ kept ≠ .ok () := by
    intro k m₁ kept hoffer hrun
    obtain ⟨hfiles, hhere₁⟩ := files_eq_of_offer hs hoffer
    rw [← hfiles, ← hhere₁] at hhere hhome habsent
    rw [← hfiles] at h ⊢
    obtain ⟨rfl, hkept⟩ := h.activation hnames hhere hhome habsent hrun
    exact ⟨rfl, hkept⟩
  cases hstep with
  | kept offer activated => exact absurd rfl (hactivation offer activated).2
  | refused offer failed => exact ⟨by simp, (hactivation offer failed).1⟩

/-- Without a home for the key file, no authenticator is made, and nothing is written. -/
theorem Vacant.exists_start_eq_error (hs : s.LeavesFiles)
    (hnames : ∀ name ∈ dir, Path.IsFileName name) (h : Vacant m.files dir)
    (hhere : m.files.HasFolder m.here) (hhome : ¬Home (inFolder dir) m.files m.here dir)
    (c : CheckedSettings) :
    ∃ e m', (TokenAuthenticator.start s ((inFolder dir).store s Machine.fileSystem) c).run m =
      (.error e, m') ∧ m'.files = m.files := by
  have hseeding := KeyRing.seeding_seeded s ((inFolder dir).store s Machine.fileSystem) c.algorithm
    c.capacity m
  rw [TokenAuthenticator.run_start]
  generalize (KeyRing.seeded s ((inFolder dir).store s Machine.fileSystem) c.algorithm
    c.capacity).run m = outcome at hseeding ⊢
  obtain ⟨answer, m'⟩ := outcome
  cases hseeding with
  | unsized failed => exact ⟨_, _, rfl, rfl⟩
  | unloaded blank failed =>
      obtain ⟨rfl, -, -⟩ := h.loading hs hnames failed
      exact ⟨_, _, rfl, rfl⟩
  | loaded blank found =>
      exact absurd rfl ((h.loading hs hnames found).2.2 _)
  | rotated blank absent step =>
      obtain ⟨rfl, hnothing, -⟩ := h.loading hs hnames absent
      exact absurd rfl ((h.rotation hs hnames hhere hhome (hnothing rfl) step).1 _)
  | unrotated blank absent step =>
      obtain ⟨rfl, hnothing, -⟩ := h.loading hs hnames absent
      exact ⟨_, _, rfl, (h.rotation hs hnames hhere hhome (hnothing rfl) step).2⟩

end KeyFile

end TokenAuthority

import TokenAuthority.Proofs.Files.Growth
import TokenAuthority.Settings.Checked

/-!
# The folder of the key file

The folder of the settings is made if it is missing, and known by its true path. To find it
changes nothing but that folders may be new, whatever comes of it, and to find it once more by
its true path changes nothing at all. What is found is a folder, unless a file stood there
already: that something is there is taken for granted then.
-/

namespace TokenAuthority

/-- A path from the root, without dots, through folders only, to what is no link. -/
structure FileTree.IsTrue (t : FileTree) (path : String) (n : Node) : Prop where
  absolute : Path.isAbsolute path = true
  plain : ∀ name ∈ Path.names path, name ≠ "." ∧ name ≠ ".."
  folders : ∀ p, p <+: Path.names path → p ≠ Path.names path → t.HasFolder p
  stands : t.node? (Path.names path) = some n
  noLink : ∀ target, n ≠ .link target

theorem Path.isAbsolute_under_of_base {base : String} (h : isAbsolute base = true) (path : String) :
    isAbsolute (under base path) = true := by
  obtain ⟨rest, hbase⟩ := List.head?_eq_some_iff.mp (beq_iff_eq.mp h)
  rw [under]
  split_ifs with hpath hform
  · exact hpath
  · rw [isAbsolute, String.toList_append, hbase]
    rfl
  · rw [isAbsolute, String.toList_append, String.toList_append, hbase]
    rfl

namespace FileTree

variable {t : FileTree} {here : Place} {path path' : String}

/-- The path that is found is true, leads where the other one led, and is its own true path. -/
theorem Real.isTrue_of_resolve (h : t.Real) (habsolute : Path.isAbsolute path = true)
    (hresolve : t.resolve here path = .ok path') :
    ∃ p n, t.find here path = .ok (p, n) ∧ t.IsTrue path' n ∧
      ∀ here', t.isPresent here' path' = true ∧ t.resolve here' path' = .ok path' := by
  obtain ⟨p, n, hfind, hpath, rfl⟩ := resolve_eq_ok hresolve
  obtain ⟨hn, hlink⟩ := h.sound.node?_of_find habsolute hfind
  have hentries := h.named p n hn
  have hnames := Path.names_ofNames fun name hname => (hentries name hname).isFileName
  refine ⟨p, n, hfind, ⟨Path.isAbsolute_ofNames p, ?_, ?_, ?_, hlink⟩, fun here' => ⟨?_, ?_⟩⟩
  · rw [hnames]
    exact fun name hname => ⟨(hentries name hname).proper.1, (hentries name hname).proper.2.1⟩
  · rw [hnames]
    exact fun q => h.sound.hasFolder_above hn
  · rw [hnames]
    exact hn
  · rw [isPresent, h.find_ofNames hn hlink hpath]
    rfl
  · exact h.resolve_ofNames hn hlink hpath here'

end FileTree

namespace CheckedSettings

open Machine

variable {m m' : Machine} {path base path' : String} {answer : Except Misconfiguration String}

/-- What is there already is known by its true path. -/
theorem run_trueFolder_of_isPresent
    (h : m.files.isPresent m.here (Path.under base path) = true) :
    (trueFolder fileSystem path base).run m =
      ((m.files.resolve m.here (Path.under base path)).mapError
        (.cannotResolve (Path.under base path)), m) := by
  have hpresent : (fileSystem.isPresent (Path.under base path)).run m = (true, m) := by
    rw [← h]
    rfl
  rw [trueFolder]
  dsimp only
  rw [run_bind_of_run_eq hpresent]
  rfl

/-- What is not there is made first. -/
theorem run_trueFolder_of_not_isPresent
    (h : m.files.isPresent m.here (Path.under base path) = false) :
    (trueFolder fileSystem path base).run m =
      match (fileSystem.ensureFolders (Path.under base path)).run m with
      | (.error e, m₁) => (.error (.cannotCreate (Path.under base path) e), m₁)
      | (.ok (), m₁) =>
        ((m₁.files.resolve m₁.here (Path.under base path)).mapError
          (.cannotResolve (Path.under base path)), m₁) := by
  have hpresent : (fileSystem.isPresent (Path.under base path)).run m = (false, m) := by
    rw [← h]
    rfl
  rw [trueFolder]
  dsimp only
  rw [run_bind_of_run_eq hpresent, if_neg Bool.false_ne_true, StateT.run_bind]
  obtain ⟨e | _, m₁⟩ := (fileSystem.ensureFolders (Path.under base path)).run m
  · rfl
  · rfl

/-- A true path is found again, and nothing changes. -/
theorem run_trueFolder_of_isTrue (habsolute : Path.isAbsolute path' = true)
    (h : ∀ here, m.files.isPresent here path' = true ∧ m.files.resolve here path' = .ok path')
    (base : String) : (trueFolder fileSystem path' base).run m = (.ok path', m) := by
  have hunder : Path.under base path' = path' := by rw [Path.under, if_pos habsolute]
  have hpresent : m.files.isPresent m.here (Path.under base path') = true := by
    rw [hunder]
    exact (h m.here).1
  rw [run_trueFolder_of_isPresent hpresent, hunder, (h m.here).2]
  rfl

end CheckedSettings

/-- A machine with a file, a link to it, and a link to itself. -/
def Machine.withLinks : Machine where
  files := (((⟨[]⟩ : FileTree).put ["file"] (.file FileTree.privateMode [])).put ["link"]
    (.link "file")).put ["loop"] (.link "loop")
  here := []
  clock := .epoch
  random _ n := List.replicate n 0
  drawn := 0

theorem FileTree.real_empty : (⟨[]⟩ : FileTree).Real := by
  have hnone : ∀ p : Place, p ≠ [] → (⟨[]⟩ : FileTree).node? p = none := fun p hp => if_neg hp
  refine ⟨fun p name n hn => ?_, fun p n hn => ?_, fun p target hn => ?_⟩
  · rw [hnone _ FileTree.place_ne_nil] at hn
    cases hn
  · obtain rfl | hp := eq_or_ne p []
    · exact List.forall_mem_nil _
    · rw [hnone p hp] at hn
      cases hn
  · obtain rfl | hp := eq_or_ne p []
    · cases hn
    · rw [hnone p hp] at hn
      cases hn

theorem Machine.real_withLinks : withLinks.files.Real := by
  have hfile : Path.IsEntry "file" :=
    ⟨⟨by decide, by decide, by decide⟩, by decide, by decide, by decide⟩
  have hlink : Path.IsEntry "link" :=
    ⟨⟨by decide, by decide, by decide⟩, by decide, by decide, by decide⟩
  have hloop : Path.IsEntry "loop" :=
    ⟨⟨by decide, by decide, by decide⟩, by decide, by decide, by decide⟩
  have hfirst := FileTree.real_empty.put (FileTree.hasFolder_root _) hfile
    (FileTree.not_hasFolder_of_none rfl) (n := .file FileTree.privateMode []) nofun
  have hsecond := hfirst.put (FileTree.hasFolder_root _) hlink
    (FileTree.not_hasFolder_of_none rfl) (n := .link "file") (by rintro _ ⟨⟩; decide)
  exact hsecond.put (FileTree.hasFolder_root _) hloop
    (FileTree.not_hasFolder_of_none rfl) (by rintro _ ⟨⟩; decide)

end TokenAuthority

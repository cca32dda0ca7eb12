import TokenAuthority.Proofs.Files.TruePath
import TokenAuthority.Proofs.KeyFile.Store

/-!
# Folders that are made

A folder is made where nothing stands, in a folder that is there already. So whatever a tree
holds is kept while folders are made, also when they cannot all be made, and a path leads to the
last of them once they are.
-/

namespace TokenAuthority

open TokenAuthority.Path (IsEntry IsPart)

namespace FileTree

/-- A tree with more folders: what stood somewhere still does, and what is new is a folder. -/
structure Grown (t t' : FileTree) : Prop where
  kept : ∀ p n, t.node? p = some n → t'.node? p = some n
  made : ∀ p n, t'.node? p = some n → t.node? p = some n ∨ n = .folder folderMode

theorem Grown.refl (t : FileTree) : t.Grown t :=
  ⟨fun _ _ h => h, fun _ _ => Or.inl⟩

theorem Grown.trans {t t' t'' : FileTree} (h : t.Grown t') (h' : t'.Grown t'') : t.Grown t'' :=
  ⟨fun p n hn => h'.kept p n (h.kept p n hn),
    fun p n hn => (h'.made p n hn).elim (h.made p n) Or.inr⟩

variable {t t' : FileTree} {here p : Place} {names : List String} {path : String} {mode : Nat}

/-! ### One folder -/

theorem grown_put {folder : Place} {name : String} (hnone : t.node? (folder ++ [name]) = none) :
    t.Grown (t.put (folder ++ [name]) (.folder folderMode)) := by
  constructor
  · intro q n hn
    rw [node?_put t place_ne_nil, if_neg, hn]
    rintro rfl
    rw [hnone] at hn
    cases hn
  · intro q n hn
    rw [node?_put t place_ne_nil] at hn
    split_ifs at hn with hq
    · cases hn
      exact Or.inr rfl
    · exact Or.inl hn

/-- What is put under a name where no folder stands leaves a tree that can be. -/
theorem Real.put {folder : Place} {name : String} (h : t.Real) (hfolder : t.HasFolder folder)
    (hname : IsEntry name) (hplain : ¬t.HasFolder (folder ++ [name])) {n : Node}
    (haim : ∀ target, n = .link target → '\x00' ∉ target.toList) :
    (t.put (folder ++ [name]) n).Real := by
  refine ⟨h.sound.put hfolder hplain _, fun q n' hn' => ?_, fun q target hn' => ?_⟩
  · rw [node?_put t place_ne_nil] at hn'
    split_ifs at hn' with hq
    · rw [hq]
      obtain ⟨mode, hmode⟩ := hfolder
      intro other hother
      obtain hother | hother := List.mem_append.mp hother
      · exact h.named folder _ hmode other hother
      · rw [List.mem_singleton.mp hother]
        exact hname
    · exact h.named q n' hn'
  · rw [node?_put t place_ne_nil] at hn'
    split_ifs at hn' with hq
    · exact haim target (Option.some.inj hn')
    · exact h.aimed q target hn'

theorem not_hasFolder_of_none (h : t.node? p = none) : ¬t.HasFolder p := by
  rintro ⟨mode, hmode⟩
  rw [h] at hmode
  cases hmode

theorem checkPath_eq_ok_iff :
    checkPath path = .ok () ↔
      '\x00' ∉ path.toList ∧ path ≠ "" ∧ Utf8.size path ≤ longestPath := by
  rw [checkPath]
  split_ifs with hend hempty hlong
  · simp [List.contains_iff_mem.mp hend]
  · simp [hempty]
  · simp [Nat.not_le.mpr hlong]
  · simp at hend
    simp [hend, hempty, Nat.not_lt.mp hlong]

/-- A folder is made at one place, where the walk along its path ends and nothing stood. -/
theorem exists_place_of_makeFolder (h : t.makeFolder here path = .ok t') :
    ∃ p, checkPath path = .ok () ∧
      t.walk false (mostLinks + 1) (if Path.isAbsolute path then [] else here) (Path.names path) =
        .ok (.free p) ∧
      t' = t.put p (.folder folderMode) := by
  obtain ⟨x, hspot, hend⟩ := bind_eq_ok_iff.mp h
  obtain ⟨_, hcheck, hwalk⟩ := bind_eq_ok_iff.mp hspot
  cases x with
  | taken p n => cases hend
  | free p =>
      cases hend
      exact ⟨p, hcheck, hwalk, rfl⟩

/-! ### The way to a new folder -/

section

variable (hkept : ∀ q n, t.node? q = some n → t'.node? q = some n)
  (hp : t'.node? p = some (.folder mode)) {dots : List String} (hdots : ∀ name ∈ dots, name = ".")
include hkept hp hdots

omit hkept in
theorem goes_dots : t'.Goes true p dots (.reached p (.folder mode)) := by
  induction dots with
  | nil =>
      have hend : (t'.node? p).getD (.folder folderMode) = .folder mode := by rw [hp]; rfl
      rw [← hend]
      exact .nil
  | cons name dots ih =>
      rw [hdots name List.mem_cons_self]
      exact .dot (ih fun other hother => hdots other (List.mem_cons_of_mem _ hother))

/-- A stride to a vacant place reaches a folder there, once there is one. -/
theorem Goes.reached_of_vacant (h : t.Goes false here names (.vacant p)) :
    t'.Goes true here (names ++ dots) (.reached p (.folder mode)) := by
  generalize hhalt : Halt.vacant p = halt at h
  induction h with
  | nil => cases hhalt
  | dot _ ih => exact .dot (ih hhalt)
  | dots _ ih => exact .dots (ih hhalt)
  | folder proper node _ ih => exact .folder proper (hkept _ _ node) (ih hhalt)
  | file _ _ => cases hhalt
  | link _ _ _ => cases hhalt
  | linkItself _ _ _ => cases hhalt
  | vacant proper _ =>
      cases hhalt
      exact .folder proper hp (goes_dots hp hdots)

omit hp hdots in
theorem Goes.atLink_of_kept {folder : Place} {target : String} {rest : List String}
    (h : t.Goes false here names (.atLink folder target rest)) (dots : List String) :
    t'.Goes true here (names ++ dots) (.atLink folder target (rest ++ dots)) := by
  generalize hhalt : Halt.atLink folder target rest = halt at h
  induction h with
  | nil => cases hhalt
  | dot _ ih => exact .dot (ih hhalt)
  | dots _ ih => exact .dots (ih hhalt)
  | folder proper node _ ih => exact .folder proper (hkept _ _ node) (ih hhalt)
  | file _ _ => cases hhalt
  | link proper node _ =>
      cases hhalt
      exact .link proper (hkept _ _ node) (by simp)
  | linkItself _ _ _ => cases hhalt
  | vacant _ _ => cases hhalt

theorem walk_of_free {links : Nat} (h : t.walk false links here names = .ok (.free p)) :
    t'.walk true links here (names ++ dots) = .ok (.taken p (.folder mode)) := by
  induction links generalizing here names with
  | zero => cases h
  | succ links ih =>
      rw [walk] at h ⊢
      obtain ⟨halt, hhalt, hnext⟩ := bind_eq_ok_iff.mp h
      have hgoes := stride_eq_ok_iff.mp hhalt
      cases halt with
      | reached q n => cases hnext
      | vacant q =>
          cases hnext
          rw [stride_eq_ok_iff.mpr (hgoes.reached_of_vacant hkept hp hdots)]
          rfl
      | atLink folder target rest =>
          rw [stride_eq_ok_iff.mpr (hgoes.atLink_of_kept hkept dots)]
          change t'.walk true links _ (Path.names target ++ (rest ++ dots)) = _
          rw [← List.append_assoc]
          exact ih hnext

end

theorem find_of_walk {base : Place} (hcheck : checkPath path = .ok ())
    (hbase : (if Path.isAbsolute path then [] else here) = base) {n : Node}
    (hwalk : ∀ dots : List String, (∀ name ∈ dots, name = ".") →
      t.walk true (mostLinks + 1) base (Path.names path ++ dots) = .ok (.taken p n)) :
    t.find here path = .ok (p, n) := by
  have hnames : ∃ dots : List String, (∀ name ∈ dots, name = ".") ∧
      (if true && Path.isFolderForm path then Path.names path ++ ["."] else Path.names path) =
        Path.names path ++ dots := by
    split_ifs
    · exact ⟨["."], by simp, rfl⟩
    · exact ⟨[], by simp, (List.append_nil _).symm⟩
  obtain ⟨dots, hdots, hnames⟩ := hnames
  have hspot : t.spot true true here path = .ok (.taken p n) := by
    rw [spot, hcheck]
    change t.walk true (mostLinks + 1) (if Path.isAbsolute path then [] else here)
      (if true && Path.isFolderForm path then Path.names path ++ ["."] else Path.names path) = _
    rw [hbase, hnames]
    exact hwalk dots hdots
  rw [find, hspot]
  rfl

/-- A tree in which a folder is made has one folder more, where the path leads. -/
theorem Real.of_makeFolder (h : t.Real) (habsolute : Path.isAbsolute path = true)
    (hmake : t.makeFolder here path = .ok t') :
    t'.Real ∧ t.Grown t' ∧ ∃ p, t'.find here path = .ok (p, .folder folderMode) := by
  obtain ⟨p, hcheck, hwalk, rfl⟩ := exists_place_of_makeFolder hmake
  rw [habsolute, if_pos rfl] at hwalk
  obtain ⟨hend, -, -⟩ := checkPath_eq_ok_iff.mp hcheck
  obtain ⟨folder, name, rfl, hname⟩ :=
    h.isEntry_of_walk (fun _ => Path.isPart_of_mem_names hend) hwalk
  obtain ⟨folder', name', hplace, hfolder, hnone⟩ := h.sound.stands_walk t.hasFolder_root hwalk
  obtain ⟨rfl, hlast⟩ := List.append_inj' hplace rfl
  cases hlast
  have hgrown : t.Grown (t.put (folder ++ [name]) (.folder folderMode)) := grown_put hnone
  have hnew : (t.put (folder ++ [name]) (.folder folderMode)).node? (folder ++ [name]) =
      some (.folder folderMode) := node?_put_self t place_ne_nil _
  refine ⟨h.put hfolder hname (not_hasFolder_of_none hnone) nofun, hgrown, folder ++ [name], ?_⟩
  exact find_of_walk hcheck (if_pos habsolute) fun dots hdots =>
    walk_of_free hgrown.kept hnew hdots hwalk

end FileTree

/-! ### Machines -/

namespace Machine

variable {α β : Type}

/-- The machine with more folders, and otherwise the same. -/
structure Grows (m m' : Machine) : Prop where
  real : m'.files.Real
  grown : m.files.Grown m'.files
  rest : m' = { m with files := m'.files }

theorem Grows.refl {m : Machine} (h : m.files.Real) : m.Grows m :=
  ⟨h, .refl m.files, rfl⟩

theorem Grows.trans {m m' m'' : Machine} (h : m.Grows m') (h' : m'.Grows m'') : m.Grows m'' := by
  refine ⟨h'.real, h.grown.trans h'.grown, ?_⟩
  rw [h'.rest, h.rest]

theorem run_makeFolder (path : String) (m : Machine) :
    (fileSystem.makeFolder path).run m = m.changed (m.files.makeFolder m.here path) :=
  run_change (fun t here => t.makeFolder here path) m

theorem run_isFolder (path : String) (m : Machine) :
    (fileSystem.isFolder path).run m = (m.files.isFolder m.here path, m) := rfl

end Machine

theorem FileTree.isFolder_iff {t : FileTree} {here : Place} {path : String} :
    t.isFolder here path = true ↔ ∃ p mode, t.find here path = .ok (p, .folder mode) := by
  rw [isFolder]
  obtain e | ⟨p, n⟩ := t.find here path
  · simp
  · cases n with
    | folder mode => simp
    | file mode content => simp
    | link target => simp

/-- What making a folder comes to: the machine has grown, and on success the path leads to a
folder. -/
structure Machine.Makes (path : String) (m : Machine) (answer : Except FileError Unit)
    (m' : Machine) : Prop where
  grows : m.Grows m'
  leads : answer = .ok () → ∃ p mode, m'.files.find m'.here path = .ok (p, .folder mode)

theorem Path.isAbsolute_of_parent? {path above : String} (h : isAbsolute path = true)
    (habove : parent? path = some above) : isAbsolute above = true := by
  rw [parent?] at habove
  cases hnames : (names path).filter (· != ".") with
  | nil =>
      rw [hnames] at habove
      cases habove
  | cons first rest =>
      rw [hnames] at habove
      dsimp only at habove
      rw [if_pos h] at habove
      cases habove
      exact isAbsolute_ofNames _

namespace FileSystem

open Machine

variable {m m' m'' : Machine} {path : String} {answer : Except FileError Unit}

/-- Where a folder cannot be made there may be one already. -/
theorem makes_of_isFolder (hm : m.files.Real) (e : FileError)
    (h : (do if ← fileSystem.isFolder path then return .ok () else return .error e :
      Act (Except FileError Unit)).run m = (answer, m')) : Makes path m answer m' := by
  rw [run_bind_of_run_eq (run_isFolder path m)] at h
  split_ifs at h with hfolder
  · cases h
    exact ⟨.refl hm, fun _ => FileTree.isFolder_iff.mp hfolder⟩
  · cases h
    exact ⟨.refl hm, nofun⟩

theorem makes_of_makeFolder (hm : m.files.Real) (habsolute : Path.isAbsolute path = true)
    {t : FileTree} (h : m.files.makeFolder m.here path = .ok t) :
    Makes path m (.ok ()) { m with files := t } := by
  obtain ⟨hreal, hgrown, p, hfind⟩ := hm.of_makeFolder habsolute h
  exact ⟨⟨hreal, hgrown, rfl⟩, fun _ => ⟨p, _, hfind⟩⟩

theorem makes_ensureFolder (hm : m.files.Real) (habsolute : Path.isAbsolute path = true)
    (h : (fileSystem.ensureFolder path).run m = (answer, m')) : Makes path m answer m' := by
  have hrun := run_makeFolder path m
  rw [ensureFolder] at h
  cases hmake : m.files.makeFolder m.here path with
  | ok t =>
      rw [hmake] at hrun
      rw [run_bind_of_run_eq hrun] at h
      cases h
      exact makes_of_makeFolder hm habsolute hmake
  | error e =>
      rw [hmake] at hrun
      rw [run_bind_of_run_eq hrun] at h
      exact makes_of_isFolder hm e h

/-- Where the folder above is missing it is made first, and the machine grows twice. -/
theorem makes_ensureFoldersWithin (fuel : Nat) (hm : m.files.Real)
    (habsolute : Path.isAbsolute path = true)
    (h : (fileSystem.ensureFoldersWithin fuel path).run m = (answer, m')) :
    Makes path m answer m' := by
  induction fuel generalizing path m answer m' with
  | zero => exact makes_ensureFolder hm habsolute h
  | succ fuel ih =>
      have hpath : path ≠ "" := by
        rintro rfl
        cases habsolute
      have hrun := run_makeFolder path m
      rw [ensureFoldersWithin, if_neg hpath] at h
      cases hmake : m.files.makeFolder m.here path with
      | ok t =>
          rw [hmake] at hrun
          rw [run_bind_of_run_eq hrun] at h
          cases h
          exact makes_of_makeFolder hm habsolute hmake
      | error e =>
          rw [hmake] at hrun
          rw [run_bind_of_run_eq hrun] at h
          cases e with
          | notFound =>
              cases habove : Path.parent? path with
              | none =>
                  rw [habove] at h
                  cases h
                  exact ⟨.refl hm, nofun⟩
              | some above =>
                  rw [habove] at h
                  cases hfirst : (fileSystem.ensureFoldersWithin fuel above).run m with
                  | mk first m₁ =>
                      have habsolute' := Path.isAbsolute_of_parent? habsolute habove
                      have hgrows := (ih hm habsolute' hfirst).grows
                      dsimp only at h
                      rw [run_bind_of_run_eq hfirst] at h
                      cases first with
                      | error e' =>
                          cases h
                          exact ⟨hgrows, nofun⟩
                      | ok _ =>
                          have hsecond := makes_ensureFolder hgrows.real habsolute h
                          exact ⟨hgrows.trans hsecond.grows, hsecond.leads⟩
          | _ => exact makes_of_isFolder hm _ h

theorem makes_ensureFolders (hm : m.files.Real) (habsolute : Path.isAbsolute path = true)
    (h : (fileSystem.ensureFolders path).run m = (answer, m')) : Makes path m answer m' :=
  makes_ensureFoldersWithin _ hm habsolute h

end FileSystem

end TokenAuthority

import TokenAuthority.Proofs.Files.Walk
import TokenAuthority.Proofs.Text.Split

/-!
# Files in a folder

The path of a file in a folder leads where the path of the folder leads, and one name
further. So reading, writing, moving and removing such a file is the same as doing it at its
place.
-/

namespace TokenAuthority

/-! ### Paths -/

/-- A name that a file in a folder can have. -/
structure Path.IsFileName (name : String) : Prop where
  proper : FileTree.IsProper name
  whole : '/' ∉ name.toList
  nonempty : name.toList ≠ []

namespace Path

variable {folder file : String}

theorem IsFileName.not_isAbsolute (h : IsFileName file) : isAbsolute file = false := by
  obtain ⟨c, cs, hcs⟩ := List.exists_cons_of_ne_nil h.nonempty
  have hc : c ≠ '/' := by
    rintro rfl
    exact h.whole (by simp [hcs])
  simp [isAbsolute, hcs, hc]

/-- What stands before the name of a file: the path of the folder, with a slash at its end. -/
theorem exists_toList_under (h : IsFileName file) (hfolder : folder ≠ "") :
    ∃ cs, (under folder file).toList = cs ++ '/' :: file.toList ∧
      (folder.toList = cs ∨ folder.toList = cs ++ ['/']) := by
  rw [under, h.not_isAbsolute, if_neg (by simp)]
  by_cases hform : isFolderForm folder
  · obtain ⟨cs, hcs⟩ := List.getLast?_eq_some_iff.mp (beq_iff_eq.mp hform)
    refine ⟨cs, ?_, Or.inr hcs⟩
    rw [if_pos (Or.inr hform), String.toList_append, hcs]
    simp
  · refine ⟨folder.toList, ?_, Or.inl rfl⟩
    rw [if_neg (by simp [hfolder, hform]), String.toList_append, String.toList_append]
    simp

theorem names_under (h : IsFileName file) : names (under folder file) = names folder ++ [file] := by
  have hfile : (Text.split '/' file.toList).filter (· != []) = [file.toList] := by
    rw [Text.split_of_not_mem h.whole]
    simp [h.nonempty]
  by_cases hfolder : folder = ""
  · subst hfolder
    rw [under, h.not_isAbsolute, if_neg (by simp), if_pos (Or.inl rfl), names, String.empty_append,
      hfile]
    simp [names]
  · obtain ⟨cs, hcs, hends⟩ := exists_toList_under h hfolder
    have hnames : (Text.split '/' folder.toList).filter (· != []) =
        (Text.split '/' cs).filter (· != []) := by
      obtain hends | hends := hends
      · rw [hends]
      · rw [hends, Text.split_append_sep, List.filter_append]
        simp
    rw [names, names, hcs, Text.split_append_sep, List.filter_append, hfile, hnames]
    simp

theorem isAbsolute_under (h : IsFileName file) :
    isAbsolute (under folder file) = isAbsolute folder := by
  by_cases hfolder : folder = ""
  · subst hfolder
    rw [under, h.not_isAbsolute, if_neg (by simp), if_pos (Or.inl rfl), String.empty_append,
      h.not_isAbsolute]
    rfl
  · obtain ⟨c, cs, hcs⟩ := List.exists_cons_of_ne_nil
      (mt String.toList_eq_nil_iff.mp hfolder)
    rw [under, h.not_isAbsolute, if_neg (by simp)]
    split_ifs <;> simp [isAbsolute, hcs]

theorem isFolderForm_under (h : IsFileName file) : isFolderForm (under folder file) = false := by
  obtain ⟨cs, hcs⟩ : ∃ cs, (under folder file).toList = cs ++ file.toList := by
    rw [under, h.not_isAbsolute, if_neg (by simp)]
    split_ifs
    · exact ⟨folder.toList, by simp⟩
    · exact ⟨folder.toList ++ ['/'], by simp⟩
  have hlast := List.getLast_mem h.nonempty
  rw [isFolderForm, hcs, List.getLast?_append, List.getLast?_eq_some_getLast h.nonempty,
    Option.some_or]
  refine beq_eq_false_iff_ne.mpr ?_
  rintro heq
  rw [Option.some.injEq] at heq
  rw [heq] at hlast
  exact h.whole hlast

theorem names_ofNames {ns : List String} (h : ∀ name ∈ ns, IsFileName name) :
    names (ofNames ns) = ns := by
  obtain rfl | hne := eq_or_ne ns []
  · decide
  have hwhole : ∀ cs ∈ ns.map String.toList, '/' ∉ cs := by
    simpa using fun name hname => (h name hname).whole
  have hfull : ∀ name ∈ ns.map String.toList, (name != []) = true := by
    simpa using fun name hname => (h name hname).nonempty
  have hsplit : Text.split '/' ([] ++ '/' :: ['/'].intercalate (ns.map String.toList)) =
      [] :: ns.map String.toList := by
    rw [Text.split_append_cons (by simp), Text.split_eq_splitOn,
      List.splitOn_intercalate '/' hwhole (by simpa using hne)]
  rw [names, ofNames, String.toList_ofList]
  rw [List.nil_append] at hsplit
  rw [hsplit, List.filter_cons_of_neg (by simp), List.filter_eq_self.mpr hfull]
  simp

theorem isAbsolute_ofNames (ns : List String) : isAbsolute (ofNames ns) = true := by
  rw [isAbsolute, ofNames, String.toList_ofList]
  rfl

end Path

namespace FileTree

open TokenAuthority.Path

/-! ### Places -/

/-- Where the path of a folder leads. -/
def folderOf (t : FileTree) (here : Place) (folder : String) : Except FileError Place :=
  t.folderWalk (mostLinks + 1) (if isAbsolute folder then [] else here) (names folder)

theorem Sound.hasFolder_folderOf {t : FileTree} (h : t.Sound) {here dir : Place}
    (hhere : t.HasFolder here) {folder : String} (hdir : t.folderOf here folder = .ok dir) :
    t.HasFolder dir := by
  refine h.hasFolder_folderWalk ?_ hdir
  split_ifs
  · exact t.hasFolder_root
  · exact hhere

theorem folderOf_of_frame?_eq {t t' : FileTree} (hframe : t'.frame? = t.frame?) {here dir : Place}
    {folder : String} (hdir : t.folderOf here folder = .ok dir) :
    t'.folderOf here folder = .ok dir :=
  folderWalk_of_frame?_eq hframe hdir

/-- The true path of a folder leads to it. -/
theorem folderOf_ofNames {t : FileTree} {here dir : Place}
    (hnames : ∀ name ∈ dir, IsFileName name) (hfolders : ∀ p, p <+: dir → t.HasFolder p) :
    t.folderOf here (Path.ofNames dir) = .ok dir := by
  have hstrides : t.Strides [] dir (.inFolder ([] ++ dir)) :=
    strides_of_hasFolder (fun name h => (hnames name h).proper) (by simpa using hfolders)
  rw [folderOf, Path.isAbsolute_ofNames, Path.names_ofNames hnames, if_pos rfl, folderWalk,
    folderStride_eq_ok_iff.mpr hstrides]
  rfl

/-- A path leads to no link. -/
def Unlinked (t : FileTree) (here : Place) (path : String) : Prop :=
  ∀ p target, t.spot false true here path ≠ .ok (.taken p (.link target))

/-- The path of a file in a folder leads to a place where there is neither a folder nor a
link. -/
structure Leads (t : FileTree) (here : Place) (folder file : String) (dir : Place) : Prop where
  isName : IsFileName file
  valid : checkPath (Path.under folder file) = .ok ()
  leads : t.folderOf here folder = .ok dir
  free : t.Free dir file

section

variable {t : FileTree} {here dir : Place} {folder file : String}

/-- The path of a file in a folder leads to the folder first. -/
theorem spot_under (hfile : IsFileName file) {follow : Bool}
    (hlink : follow → checkPath (Path.under folder file) = .ok () →
      ∀ dir target, t.folderOf here folder = .ok dir →
        t.node? (dir ++ [file]) ≠ some (.link target)) :
    t.spot follow true here (Path.under folder file) = do
      checkPath (Path.under folder file)
      let dir ← t.folderOf here folder
      return t.under dir file := by
  rw [spot, names_under hfile, isAbsolute_under hfile, isFolderForm_under hfile]
  cases hcheck : checkPath (Path.under folder file) with
  | error e => rfl
  | ok _ =>
      have hwalk := walk_append (t := t) hfile.proper fun hfollow dir target =>
        hlink hfollow hcheck dir target
      change t.walk follow (mostLinks + 1) (if isAbsolute folder then [] else here)
        (names folder ++ [file]) = (t.folderOf here folder >>= fun dir => pure (t.under dir file))
      rw [hwalk]
      change (t.folderOf here folder).map _ = _
      cases t.folderOf here folder with
      | error e => rfl
      | ok dir => rfl

theorem spot_false_eq_ok_iff (hfile : IsFileName file) {x : Spot} :
    t.spot false true here (Path.under folder file) = .ok x ↔
      checkPath (Path.under folder file) = .ok () ∧
        ∃ dir, t.folderOf here folder = .ok dir ∧ t.under dir file = x := by
  rw [spot_under hfile (by simp)]
  constructor
  · intro h
    obtain ⟨_, hcheck, h⟩ := bind_eq_ok_iff.mp h
    obtain ⟨dir, hdir, h⟩ := bind_eq_ok_iff.mp h
    cases h
    exact ⟨hcheck, dir, hdir, rfl⟩
  · rintro ⟨hcheck, dir, hdir, rfl⟩
    rw [hcheck, hdir]
    rfl

theorem Unlinked.node?_ne_link (hlink : t.Unlinked here (Path.under folder file))
    (hfile : IsFileName file) (hcheck : checkPath (Path.under folder file) = .ok ())
    (hdir : t.folderOf here folder = .ok dir) (target : String) :
    t.node? (dir ++ [file]) ≠ some (.link target) := by
  intro hnode
  refine hlink (dir ++ [file]) target ((spot_false_eq_ok_iff hfile).mpr ⟨hcheck, dir, hdir, ?_⟩)
  rw [FileTree.under, hnode]

/-- Whether a path leads to a link depends on the frame only. -/
theorem Unlinked.of_frame?_eq (hlink : t.Unlinked here (Path.under folder file))
    (hfile : IsFileName file) {t' : FileTree} (hframe : t'.frame? = t.frame?) :
    t'.Unlinked here (Path.under folder file) := by
  intro p target hspot
  obtain ⟨hcheck, dir, hdir, hunder⟩ := (spot_false_eq_ok_iff hfile).mp hspot
  have hdir' := folderOf_of_frame?_eq hframe.symm hdir
  rw [FileTree.under] at hunder
  cases hnode : t'.node? (dir ++ [file]) with
  | none =>
      rw [hnode] at hunder
      cases hunder
  | some n =>
      rw [hnode] at hunder
      cases hunder
      exact hlink.node?_ne_link hfile hcheck hdir' target
        (node?_of_frame?_eq hframe.symm hnode (by simp))

/-- What is no folder is moved to another name in its folder, unless that is a folder's. -/
theorem rename_under {other : String} (hfile : IsFileName file) (hother : IsFileName other)
    (hcheck : checkPath (Path.under folder file) = .ok ())
    (hcheck' : checkPath (Path.under folder other) = .ok ())
    (hdir : t.folderOf here folder = .ok dir) (hne : file ≠ other) {n : Node}
    (hn : t.node? (dir ++ [file]) = some n) (hplain : ∀ mode, n ≠ .folder mode) :
    (t.HasFolder (dir ++ [other]) →
      t.rename here (Path.under folder file) (Path.under folder other) = .error .isFolder) ∧
    (¬t.HasFolder (dir ++ [other]) →
      t.rename here (Path.under folder file) (Path.under folder other) =
        .ok ((t.erase (dir ++ [file])).put (dir ++ [other]) n)) := by
  have hplaces : dir ++ [file] ≠ dir ++ [other] := by simpa using hne
  have hsource : t.spot false true here (Path.under folder file) =
      .ok (.taken (dir ++ [file]) n) := by
    refine (spot_false_eq_ok_iff hfile).mpr ⟨hcheck, dir, hdir, ?_⟩
    rw [FileTree.under, hn]
  have htarget : t.spot false true here (Path.under folder other) = .ok (t.under dir other) :=
    (spot_false_eq_ok_iff hother).mpr ⟨hcheck', dir, hdir, rfl⟩
  rw [rename, hsource, htarget, FileTree.under]
  cases n with
  | folder mode => exact absurd rfl (hplain mode)
  | file _ _ | link _ =>
      constructor
      · rintro ⟨mode, hmode⟩
        rw [hmode]
        rfl
      · intro hfolder
        cases hn' : t.node? (dir ++ [other]) with
        | none => rfl
        | some n' =>
            cases n' with
            | folder mode => exact absurd ⟨mode, hn'⟩ hfolder
            | file _ _ | link _ => exact congrArg Except.ok (if_neg hplaces)

/-- A path that leads to no link leads to a place in a folder, unless it leads to a folder. -/
theorem exists_leads_of_spot (hsound : t.Sound) (hhere : t.HasFolder here)
    (hfile : IsFileName file) (hlink : t.Unlinked here (Path.under folder file)) {follow : Bool}
    {x : Spot} (hx : t.spot follow true here (Path.under folder file) = .ok x)
    (hfolder : ∀ p mode, x ≠ .taken p (.folder mode)) :
    ∃ dir, t.Leads here folder file dir := by
  rw [spot_under hfile fun _ hcheck dir target hdir => hlink.node?_ne_link hfile hcheck hdir target]
    at hx
  obtain ⟨_, hcheck, hx⟩ := bind_eq_ok_iff.mp hx
  obtain ⟨dir, hdir, hx⟩ := bind_eq_ok_iff.mp hx
  refine ⟨dir, hfile, hcheck, hdir, hsound.hasFolder_folderOf hhere hdir, ?_⟩
  rw [frame?_eq_none_iff]
  have hnodes := hlink.node?_ne_link hfile hcheck hdir
  cases hnode : t.node? (dir ++ [file]) with
  | none => exact Or.inl rfl
  | some n =>
      cases n with
      | file mode content => exact Or.inr ⟨mode, content, rfl⟩
      | link target => exact absurd hnode (hnodes target)
      | folder mode =>
          rw [FileTree.under, hnode] at hx
          cases hx
          exact absurd rfl (hfolder _ mode)

theorem exists_leads_of_write (hsound : t.Sound) (hhere : t.HasFolder here)
    (hfile : IsFileName file) (hlink : t.Unlinked here (Path.under folder file)) {mode : Nat}
    {content : Bytes} {t' : FileTree}
    (h : t.write here (Path.under folder file) mode content = .ok t') :
    ∃ dir, t.Leads here folder file dir := by
  obtain ⟨x, hx, h⟩ := bind_eq_ok_iff.mp h
  refine exists_leads_of_spot hsound hhere hfile hlink hx ?_
  rintro p mode rfl
  cases h

/-- A file or a link never takes the place of a folder. -/
theorem exists_spot_of_rename {source target : String} {t' : FileTree}
    (h : t.rename here source target = .ok t') :
    ∃ x, t.spot false true here target = .ok x ∧ ∀ q mode, x ≠ .taken q (.folder mode) := by
  obtain ⟨y, hy, h⟩ := bind_eq_ok_iff.mp h
  cases y with
  | free p => cases h
  | taken p n =>
      cases n with
      | folder mode => cases h
      | file mode content =>
          obtain ⟨x, hx, h⟩ := bind_eq_ok_iff.mp h
          refine ⟨x, hx, ?_⟩
          rintro q mode rfl
          cases h
      | link aim =>
          obtain ⟨x, hx, h⟩ := bind_eq_ok_iff.mp h
          refine ⟨x, hx, ?_⟩
          rintro q mode rfl
          cases h

theorem exists_leads_of_rename (hsound : t.Sound) (hhere : t.HasFolder here)
    (hfile : IsFileName file) (hlink : t.Unlinked here (Path.under folder file))
    {source : String} {t' : FileTree}
    (h : t.rename here source (Path.under folder file) = .ok t') :
    ∃ dir, t.Leads here folder file dir := by
  obtain ⟨x, hx, hplain⟩ := exists_spot_of_rename h
  exact exists_leads_of_spot hsound hhere hfile hlink hx hplain

end

namespace Leads

variable {t : FileTree} {here dir : Place} {folder file : String}

theorem of_frame?_eq (h : t.Leads here folder file dir) {t' : FileTree}
    (hframe : t'.frame? = t.frame?) : t'.Leads here folder file dir :=
  ⟨h.isName, h.valid, folderOf_of_frame?_eq hframe h.leads, h.free.of_frame?_eq hframe⟩

theorem spot (h : t.Leads here folder file dir) (follow : Bool) :
    t.spot follow true here (Path.under folder file) = .ok (t.under dir file) := by
  rw [spot_under h.isName, h.valid, h.leads]
  · rfl
  · intro _ _ dir' target hdir hnode
    rw [h.leads] at hdir
    cases hdir
    exact h.free.node?_ne (by simp) hnode

/-- What stands at the place, if anything does, is a file. -/
theorem node?_cases (h : t.Leads here folder file dir) :
    t.node? (dir ++ [file]) = none ∨
      ∃ mode content, t.node? (dir ++ [file]) = some (.file mode content) :=
  frame?_eq_none_iff.mp h.free.plain

theorem unlinked (h : t.Leads here folder file dir) :
    t.Unlinked here (Path.under folder file) := by
  intro p target hspot
  rw [h.spot, FileTree.under] at hspot
  obtain hnode | ⟨mode, content, hnode⟩ := h.node?_cases
  · rw [hnode] at hspot
    cases hspot
  · rw [hnode] at hspot
    cases hspot

/-! ### Operations -/

theorem isPresent_of_none (h : t.Leads here folder file dir)
    (hnode : t.node? (dir ++ [file]) = none) :
    t.isPresent here (Path.under folder file) = false := by
  rw [isPresent, find, h.spot, FileTree.under, hnode]
  rfl

theorem isPresent_of_file (h : t.Leads here folder file dir) {mode : Nat} {content : Bytes}
    (hnode : t.node? (dir ++ [file]) = some (.file mode content)) :
    t.isPresent here (Path.under folder file) = true := by
  rw [isPresent, find, h.spot, FileTree.under, hnode]
  rfl

theorem read_of_file (h : t.Leads here folder file dir) {mode : Nat} {content : Bytes}
    (hnode : t.node? (dir ++ [file]) = some (.file mode content)) :
    t.read here (Path.under folder file) = .ok content := by
  rw [read, find, h.spot, FileTree.under, hnode]
  rfl

theorem restrict_of_file (h : t.Leads here folder file dir) {mode : Nat} {content : Bytes}
    (hnode : t.node? (dir ++ [file]) = some (.file mode content)) (mode' : Nat) :
    t.restrict here (Path.under folder file) mode' =
      .ok (t.put (dir ++ [file]) (.file mode' content)) := by
  rw [restrict, find, h.spot, FileTree.under, hnode]
  rfl

theorem exists_write (h : t.Leads here folder file dir) (mode : Nat) (content : Bytes) :
    ∃ mode', t.write here (Path.under folder file) mode content =
      .ok (t.put (dir ++ [file]) (.file mode' content)) := by
  rw [write, h.spot, FileTree.under]
  obtain hnode | ⟨mode', content', hnode⟩ := h.node?_cases
  · rw [hnode]
    exact ⟨mode, rfl⟩
  · rw [hnode]
    exact ⟨mode', rfl⟩

theorem rename_of_file (h : t.Leads here folder file dir) {other : String}
    (hother : t.Leads here folder other dir) (hne : file ≠ other) {mode : Nat} {content : Bytes}
    (hnode : t.node? (dir ++ [file]) = some (.file mode content)) :
    t.rename here (Path.under folder file) (Path.under folder other) =
      .ok ((t.erase (dir ++ [file])).put (dir ++ [other]) (.file mode content)) :=
  (rename_under h.isName hother.isName h.valid hother.valid h.leads hne hnode (by simp)).2
    hother.free.not_hasFolder

theorem remove_of_none (h : t.Leads here folder file dir)
    (hnode : t.node? (dir ++ [file]) = none) :
    t.remove here (Path.under folder file) = .error .notFound := by
  rw [remove, h.spot, FileTree.under, hnode]
  rfl

theorem remove_of_file (h : t.Leads here folder file dir) {mode : Nat} {content : Bytes}
    (hnode : t.node? (dir ++ [file]) = some (.file mode content)) :
    t.remove here (Path.under folder file) = .ok (t.erase (dir ++ [file])) := by
  rw [remove, h.spot, FileTree.under, hnode]
  rfl

end Leads

end FileTree

end TokenAuthority

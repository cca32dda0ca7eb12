import TokenAuthority.Host
import TokenAuthority.Proofs.Files.Disk
import TokenAuthority.Proofs.Files.Search

/-!
# What a process can do on a host

A path of a file in a folder leads a process to the file if it may search the folders on the
way. What it writes or moves there is no folder and no link, so the way stays as it was, and with
it who may do what in the folders.
-/

namespace TokenAuthority.Host

open FileTree (Spot checkPath mostLinks)

variable {h h' : Host} {folder file : String} {dir : Place}

/-! ### Operations and their answers -/

/-- What is answered of a change, and the host after it. -/
def changed (h : Host) : Except FileError Disk → Except FileError Unit × Host
  | .ok disk => (.ok (), { h with disk })
  | .error e => (.error e, h)

theorem run_change (f : Host → Except FileError Disk) (h : Host) :
    (change f).run h = h.changed (f h) := by
  unfold change
  rw [StateT.run_bind]
  change StateT.run (match f h with
    | .ok disk => set { h with disk } >>= fun _ => pure (Except.ok ())
    | .error e => pure (Except.error e)) h = _
  cases f h <;> rfl

/-! ### Going to a folder -/

/-- The process can go to a folder and look names up there: a path leads to the folder, and all
folders on the way may be searched, the last one too. -/
structure Reaches (h : Host) (folder : String) (dir : Place) : Prop where
  leads : h.disk.tree.folderOf h.here folder = .ok dir
  way : ∀ q ∈ h.disk.tree.folderSearched (mostLinks + 1)
    (if Path.isAbsolute folder then [] else h.here) (Path.names folder), h.may .search q
  inFolder : h.may .search dir

theorem Reaches.maySearch (hr : h.Reaches folder dir) (hfile : Path.IsFileName file) {follow : Bool}
    (hlink : follow → ∀ target, h.disk.tree.node? (dir ++ [file]) ≠ some (.link target)) :
    h.maySearch follow (Path.under folder file) = true := by
  rw [Host.maySearch, Path.isAbsolute_under hfile, Path.names_under hfile,
    FileTree.searched_append hfile.proper hr.leads hlink, List.all_eq_true]
  intro q hq
  obtain hq | hq := List.mem_append.mp hq
  · exact hr.way q hq
  · rw [List.mem_singleton.mp hq]
    exact hr.inFolder

theorem reaches_of_maySearch (hfile : Path.IsFileName file)
    (hdir : h.disk.tree.folderOf h.here folder = .ok dir) {follow : Bool}
    (hsearch : h.maySearch follow (Path.under folder file) = true) : h.Reaches folder dir := by
  rw [Host.maySearch, Path.isAbsolute_under hfile, Path.names_under hfile,
    List.all_eq_true] at hsearch
  have hmem := (FileTree.folderSearched_prefix follow file hdir).subset
  exact ⟨hdir, fun q hq => hsearch q (hmem (List.mem_append_left _ hq)),
    hsearch dir (hmem (List.mem_append_right _ (List.mem_singleton_self dir)))⟩

/-- Where a path ends that all folders on the way let through. -/
theorem spot_eq_ok_iff {follow slash : Bool} {path : String} {x : Spot} :
    h.spot follow slash path = .ok x ↔
      checkPath path = .ok () ∧ h.maySearch follow path = true ∧
        h.disk.tree.spot follow slash h.here path = .ok x := by
  constructor
  · intro hx
    obtain ⟨_, hcheck, hx⟩ := bind_eq_ok_iff.mp hx
    split_ifs at hx with hsearch
    exact ⟨hcheck, hsearch, hx⟩
  · rintro ⟨hcheck, hsearch, hx⟩
    refine bind_eq_ok_iff.mpr ⟨(), hcheck, ?_⟩
    rw [if_pos hsearch]
    exact hx

theorem Reaches.spot (hr : h.Reaches folder dir) (hfile : Path.IsFileName file)
    (hcheck : checkPath (Path.under folder file) = .ok ()) {follow : Bool}
    (hlink : follow → ∀ target, h.disk.tree.node? (dir ++ [file]) ≠ some (.link target)) :
    h.spot follow true (Path.under folder file) = .ok (h.disk.tree.under dir file) := by
  refine spot_eq_ok_iff.mpr ⟨hcheck, hr.maySearch hfile hlink, ?_⟩
  rw [FileTree.spot_under hfile, hcheck, hr.leads]
  · rfl
  · intro hfollow _ dir' target hdir'
    cases hr.leads.symm.trans hdir'
    exact hlink hfollow target

theorem exists_reaches_of_spot (hfile : Path.IsFileName file) {follow : Bool} {x : Spot}
    (hx : h.spot follow true (Path.under folder file) = .ok x) :
    checkPath (Path.under folder file) = .ok () ∧ (∃ dir, h.Reaches folder dir) ∧
      h.disk.tree.spot follow true h.here (Path.under folder file) = .ok x := by
  obtain ⟨hcheck, hsearch, hx⟩ := spot_eq_ok_iff.mp hx
  obtain ⟨-, dir, hdir⟩ := FileTree.exists_folderOf_of_spot hfile hx
  exact ⟨hcheck, ⟨dir, reaches_of_maySearch hfile hdir hsearch⟩, hx⟩

theorem Reaches.unique {dir' : Place} (hr : h.Reaches folder dir) (hr' : h.Reaches folder dir') :
    dir' = dir :=
  Except.ok.inj (hr'.leads.symm.trans hr.leads)

theorem Reaches.hasFolder (hr : h.Reaches folder dir) (hsound : h.disk.tree.Sound)
    (hhere : h.disk.tree.HasFolder h.here) : h.disk.tree.HasFolder dir :=
  hsound.hasFolder_folderOf hhere hr.leads

/-! ### Ways that stay -/

theorem may_of_rights?_eq {x : Access} {p : Place} (huser : h'.user = h.user)
    (hrights : h'.disk.rights? p = h.disk.rights? p) : h'.may x p = h.may x p := by
  rw [may, may, huser, hrights]

/-- A host is another with fewer links at most: the folders are the same, and the process may do
in them what it may do there on the other. -/
structure Within (h' h : Host) : Prop where
  user : h'.user = h.user
  here : h'.here = h.here
  frame : ∀ p n, h'.disk.tree.frame? p = some n → h.disk.tree.frame? p = some n
  folders : ∀ q, h.disk.tree.HasFolder q → h'.disk.tree.HasFolder q
  rights : ∀ q, h.disk.tree.HasFolder q → h'.disk.rights? q = h.disk.rights? q

theorem Within.trans {h'' : Host} (hw' : h''.Within h') (hw : h'.Within h) : h''.Within h :=
  ⟨hw'.user.trans hw.user, hw'.here.trans hw.here, fun p n hp => hw.frame p n (hw'.frame p n hp),
    fun q hq => hw'.folders q (hw.folders q hq),
    fun q hq => (hw'.rights q (hw.folders q hq)).trans (hw.rights q hq)⟩

theorem Within.may (hw : h'.Within h) {q : Place} (hq : h.disk.tree.HasFolder q) (x : Access) :
    h'.may x q = h.may x q :=
  may_of_rights?_eq hw.user (hw.rights q hq)

/-- A way that is still there is open as it was. -/
theorem Reaches.of_within (hr : h.Reaches folder dir) (hw : h'.Within h)
    (hsound : h.disk.tree.Sound) (hhere : h.disk.tree.HasFolder h.here)
    (hdir : h'.disk.tree.folderOf h'.here folder = .ok dir) : h'.Reaches folder dir := by
  have hstart : h.disk.tree.HasFolder (if Path.isAbsolute folder then [] else h.here) := by
    split_ifs
    · exact FileTree.hasFolder_root _
    · exact hhere
  have hsearched := FileTree.folderSearched_of_frame?_le hw.frame hdir
  refine ⟨hdir, fun q hq => ?_, ?_⟩
  · rw [← hsearched, hw.here] at hq
    rw [hw.may (hsound.hasFolder_of_mem_folderSearched hstart hr.leads hq)]
    exact hr.way q hq
  · rw [hw.may (hr.hasFolder hsound hhere)]
    exact hr.inFolder

theorem folderOf_of_within (hw : h'.Within h)
    (hdir : h'.disk.tree.folderOf h'.here folder = .ok dir) :
    h.disk.tree.folderOf h.here folder = .ok dir := by
  rw [hw.here] at hdir
  exact FileTree.folderWalk_of_frame?_le hw.frame hdir

/-! ### Writing -/

section

variable {above : Place} {name : String}

theorem rights?_filled_of_ne (h : Host) {content : Bytes} {q : Place} (hq : q ≠ above ++ [name]) :
    (h.filled (above ++ [name]) content).disk.rights? q = h.disk.rights? q :=
  Disk.rights?_fill_of_ne h.disk FileTree.place_ne_nil h.user content hq

theorem owns_self (u : User) (group mode : Nat) : u.owns ⟨u.id, group, mode⟩ = true := by
  simp [User.owns]

/-- What the process has written is its own, unless it was there before. -/
theorem owns_filled_self (h : Host) (content : Bytes) :
    (h.filled (above ++ [name]) content).owns (above ++ [name]) =
      ((h.disk.rights? (above ++ [name])).isNone || h.owns (above ++ [name])) := by
  rw [owns, owns, filled, Disk.rights?_fill_self h.disk FileTree.place_ne_nil]
  cases h.disk.rights? (above ++ [name]) with
  | none => exact owns_self _ _ _
  | some r => rfl

section

variable (hfree : h.disk.tree.Free above name) {p : Place} (hp : h.disk.tree.HasFolder p)
include hfree hp

theorem rights?_filled_of_hasFolder (content : Bytes) :
    (h.filled (above ++ [name]) content).disk.rights? p = h.disk.rights? p := by
  refine rights?_filled_of_ne h ?_
  rintro rfl
  exact hfree.not_hasFolder hp

/-- A file that is written does not change which names in a folder are for others to take. -/
theorem isKept_filled (content : Bytes) (last : String) :
    (h.filled (above ++ [name]) content).isKept (p ++ [last]) = h.isKept (p ++ [last]) := by
  have hfolder := rights?_filled_of_hasFolder hfree hp content
  by_cases hlast : p ++ [last] = above ++ [name]
  · rw [isKept, isKept, List.dropLast_concat, owns, hfolder, hlast, owns_filled_self,
      filled, Disk.rights?_fill_self h.disk FileTree.place_ne_nil]
    cases h.disk.rights? (above ++ [name]) <;> simp [owns]
  · have hfile : (h.filled (above ++ [name]) content).disk.rights? (p ++ [last]) =
        h.disk.rights? (p ++ [last]) := rights?_filled_of_ne h hlast
    rw [isKept, isKept, List.dropLast_concat, owns, owns, owns, owns, hfolder, hfile]
    rfl

end

theorem within_filled (hfree : h.disk.tree.Free above name) (content : Bytes) :
    (h.filled (above ++ [name]) content).disk.tree.frame? = h.disk.tree.frame? ∧
      (h.filled (above ++ [name]) content).Within h := by
  have hframe : (h.filled (above ++ [name]) content).disk.tree.frame? = h.disk.tree.frame? := by
    funext q
    have hq := Disk.node?_fill hfree h.user content q
    split_ifs at hq with hsame
    · have hplain := hfree.plain
      rw [FileTree.frame?, ← hsame.node?_eq] at hplain
      rw [FileTree.frame?, filled, hq, FileTree.frame?, hplain]
    · exact FileTree.frame?_of_node? hq
  exact ⟨hframe, rfl, rfl, fun p n hp => hframe ▸ hp,
    fun q hq => FileTree.hasFolder_of_frame?_eq hframe hq,
    fun q hq => rights?_filled_of_hasFolder hfree hq content⟩

theorem sound_filled (hsound : h.disk.tree.Sound) (hfree : h.disk.tree.Free above name)
    (content : Bytes) : (h.filled (above ++ [name]) content).disk.tree.Sound := by
  have hframe := (within_filled hfree content).1
  intro p last n hn
  refine FileTree.hasFolder_of_frame?_eq hframe ?_
  rw [filled, Disk.node?_fill hfree] at hn
  split_ifs at hn with hsame
  · obtain heq | ⟨hnumber, heq⟩ := hsame
    · rw [← (List.append_inj' heq rfl).1]
      exact hfree.inFolder
    · obtain ⟨i, hi⟩ := Option.ne_none_iff_exists'.mp hnumber
      exact hsound _ _ _ (Disk.node?_of_number? (heq ▸ hi))
  · exact hsound p last n hn

/-- A file is opened at a place in a folder where neither a folder nor a link stands. -/
theorem exists_free_of_opened (hsound : h.disk.tree.Sound) (hhere : h.disk.tree.HasFolder h.here)
    {path : String} {p : Place} (hp : h.opened path = .ok p) :
    ∃ above name, p = above ++ [name] ∧ h.disk.tree.Free above name ∧
      h.spot true true path = .ok (h.disk.tree.under above name) := by
  obtain ⟨x, hx, hp⟩ := bind_eq_ok_iff.mp hp
  obtain ⟨hcheck, hsearch, hspot⟩ := spot_eq_ok_iff.mp hx
  -- The tree without rights has a file written at the same place.
  obtain ⟨t, hwrite⟩ : ∃ t, h.disk.tree.write h.here path 0 [] = .ok t := by
    rw [FileTree.write, hspot]
    cases x with
    | free q => exact ⟨_, rfl⟩
    | taken q n =>
        cases n with
        | file mode content => exact ⟨_, rfl⟩
        | folder mode => cases hp
        | link target => cases hp
  obtain ⟨above, name, -, hfree, hunder, -⟩ := FileTree.exists_place_of_write hsound hhere hwrite
  obtain rfl := Except.ok.inj (hspot.symm.trans hunder)
  refine ⟨above, name, ?_, hfree, hx⟩
  have hplace : p = (h.disk.tree.under above name).place := by
    cases hx' : h.disk.tree.under above name with
    | free q =>
        rw [hx'] at hp
        dsimp only at hp
        split_ifs at hp
        exact (Except.ok.inj hp).symm
    | taken q n =>
        rw [hx'] at hp
        cases n with
        | file mode content =>
            dsimp only at hp
            split_ifs at hp
            exact (Except.ok.inj hp).symm
        | folder mode => cases hp
        | link target => cases hp
  rw [hplace, FileTree.place_under]

/-- All that writing can do. -/
inductive Writing (h : Host) (path : String) (content : Bytes) :
    Except FileError Unit → Host → Prop
  | unopened (why : FileError) : Writing h path content (.error why) h
  | cut {above : Place} {name : String} {n : Nat} {why : FileError}
      (fault : h.fault? = some (n, why)) (free : h.disk.tree.Free above name)
      (leads : h.spot true true path = .ok (h.disk.tree.under above name)) :
      Writing h path content (.error why) (h.filled (above ++ [name]) (content.take n))
  | written {above : Place} {name : String} (free : h.disk.tree.Free above name)
      (leads : h.spot true true path = .ok (h.disk.tree.under above name)) :
      Writing h path content (.ok ()) (h.filled (above ++ [name]) content)

theorem writing (hsound : h.disk.tree.Sound) (hhere : h.disk.tree.HasFolder h.here)
    (path : String) (content : Bytes) :
    Writing h path content (h.write path content).1 (h.write path content).2 := by
  rw [write]
  cases hopened : h.opened path with
  | error why => exact .unopened why
  | ok p =>
      obtain ⟨above, name, rfl, hfree, hleads⟩ := exists_free_of_opened hsound hhere hopened
      cases hfault : h.fault? with
      | none => exact .written hfree hleads
      | some fault => exact .cut hfault hfree hleads

end

/-! ### Finding, reading and moving -/

theorem Reaches.find (hr : h.Reaches folder dir) (hfile : Path.IsFileName file)
    (hcheck : checkPath (Path.under folder file) = .ok ()) {n : Node}
    (hn : h.disk.tree.node? (dir ++ [file]) = some n) (hlink : ∀ target, n ≠ .link target) :
    h.find (Path.under folder file) = .ok (dir ++ [file], n) := by
  have hspot : h.spot true true (Path.under folder file) = .ok (h.disk.tree.under dir file) := by
    refine hr.spot hfile hcheck fun _ target heq => ?_
    rw [hn] at heq
    exact hlink target (Option.some.inj heq)
  rw [Host.find, hspot, FileTree.under, hn]
  rfl

theorem Reaches.find_of_none (hr : h.Reaches folder dir) (hfile : Path.IsFileName file)
    (hcheck : checkPath (Path.under folder file) = .ok ())
    (hn : h.disk.tree.node? (dir ++ [file]) = none) :
    h.find (Path.under folder file) = .error .notFound := by
  have hspot : h.spot true true (Path.under folder file) = .ok (h.disk.tree.under dir file) := by
    refine hr.spot hfile hcheck fun _ target heq => ?_
    rw [hn] at heq
    cases heq
  rw [Host.find, hspot, FileTree.under, hn]
  rfl

theorem exists_reaches_of_find (hfile : Path.IsFileName file) {found : Place × Node}
    (hfound : h.find (Path.under folder file) = .ok found) :
    checkPath (Path.under folder file) = .ok () ∧ ∃ dir, h.Reaches folder dir := by
  obtain ⟨x, hx, -⟩ := bind_eq_ok_iff.mp hfound
  obtain ⟨hcheck, hreaches, -⟩ := exists_reaches_of_spot hfile hx
  exact ⟨hcheck, hreaches⟩

/-- Why what stands under one name of a folder may not be moved to another: the process may not
change the folder, only others may take one of the names, or a folder has the other name. -/
inductive Refuses (h : Host) (dir : Place) (source target : String) : FileError → Prop
  | unwritable (bound : h.may .write dir = false) : Refuses h dir source target .denied
  | kept (bound : h.isKept (dir ++ [source]) ∨ h.isKept (dir ++ [target])) :
      Refuses h dir source target .notPermitted
  | folder (standing : h.disk.tree.HasFolder (dir ++ [target])) :
      Refuses h dir source target .isFolder

/-- A file that is written is no reason for a refusal. -/
theorem Refuses.of_filled {above : Place} {name source target : String} {content : Bytes}
    {why : FileError} (hr : (h.filled (above ++ [name]) content).Refuses dir source target why)
    (hfree : h.disk.tree.Free above name) (hdir : h.disk.tree.HasFolder dir) :
    h.Refuses dir source target why := by
  cases hr with
  | unwritable bound =>
      have hmay : (h.filled (above ++ [name]) content).may .write dir = h.may .write dir :=
        may_of_rights?_eq rfl (rights?_filled_of_hasFolder hfree hdir content)
      exact .unwritable (hmay ▸ bound)
  | kept bound =>
      rw [isKept_filled hfree hdir, isKept_filled hfree hdir] at bound
      exact .kept bound
  | folder standing =>
      exact .folder (FileTree.hasFolder_of_frame?_eq (within_filled hfree content).1.symm standing)

theorem checkName_cases (h : Host) (dir : Place) (name : String) :
    h.checkName (dir ++ [name]) = .ok () ∨
      (h.may .write dir = false ∧ h.checkName (dir ++ [name]) = .error .denied) ∨
      h.isKept (dir ++ [name]) ∧ h.checkName (dir ++ [name]) = .error .notPermitted := by
  rw [checkName, List.dropLast_concat]
  cases hwrite : h.may .write dir with
  | false => exact Or.inr (Or.inl ⟨rfl, rfl⟩)
  | true =>
      cases hkept : h.isKept (dir ++ [name]) with
      | true => exact Or.inr (Or.inr ⟨rfl, rfl⟩)
      | false => exact Or.inl rfl

/-- What is no folder is moved in its folder, unless both names are of one file, or it is
refused. -/
theorem Reaches.rename_cases (hr : h.Reaches folder dir) (hfile : Path.IsFileName file)
    {other : String} (hother : Path.IsFileName other)
    (hcheck : checkPath (Path.under folder file) = .ok ())
    (hcheck' : checkPath (Path.under folder other) = .ok ()) {n : Node}
    (hn : h.disk.tree.node? (dir ++ [file]) = some n) (hplain : ∀ mode, n ≠ .folder mode) :
    (h.disk.SameFile (dir ++ [file]) (dir ++ [other]) ∧
      h.rename (Path.under folder file) (Path.under folder other) = .ok h.disk) ∨
    (¬h.disk.SameFile (dir ++ [file]) (dir ++ [other]) ∧
      ¬h.disk.tree.HasFolder (dir ++ [other]) ∧
      h.rename (Path.under folder file) (Path.under folder other) =
        .ok (h.disk.move (dir ++ [file]) (dir ++ [other]))) ∨
    ∃ why, h.Refuses dir file other why ∧
      h.rename (Path.under folder file) (Path.under folder other) = .error why := by
  have hsource : h.spot false true (Path.under folder file) = .ok (h.disk.tree.under dir file) :=
    hr.spot hfile hcheck (by simp)
  have htarget : h.spot false true (Path.under folder other) = .ok (h.disk.tree.under dir other) :=
    hr.spot hother hcheck' (by simp)
  rw [FileTree.under, hn] at hsource
  have hrename : h.rename (Path.under folder file) (Path.under folder other) =
      if h.disk.SameFile (dir ++ [file]) (dir ++ [other]) then .ok h.disk
      else do
        h.checkName (dir ++ [file])
        h.checkName (dir ++ [other])
        checkPlain (h.disk.tree.under dir other)
        return h.disk.move (dir ++ [file]) (dir ++ [other]) := by
    rw [rename, hsource, htarget, ← FileTree.place_under h.disk.tree dir other]
    cases n with
    | folder mode => exact absurd rfl (hplain mode)
    | file _ _ | link _ => rfl
  rw [hrename]
  split_ifs with hsame
  · exact Or.inl ⟨hsame, rfl⟩
  right
  obtain hname | ⟨hbound, hname⟩ | ⟨hbound, hname⟩ := checkName_cases h dir file
  · obtain hname' | ⟨hbound, hname'⟩ | ⟨hbound, hname'⟩ := checkName_cases h dir other
    · rw [hname, hname', FileTree.under]
      cases hstanding : h.disk.tree.node? (dir ++ [other]) with
      | none => exact Or.inl ⟨hsame, by simp [FileTree.HasFolder, hstanding], rfl⟩
      | some n' =>
          cases n' with
          | folder mode => exact Or.inr ⟨_, .folder ⟨mode, hstanding⟩, rfl⟩
          | file _ _ | link _ =>
            exact Or.inl ⟨hsame, by simp [FileTree.HasFolder, hstanding], rfl⟩
    · exact Or.inr ⟨_, .unwritable hbound, by rw [hname, hname']; rfl⟩
    · exact Or.inr ⟨_, .kept (Or.inr hbound), by rw [hname, hname']; rfl⟩
  · exact Or.inr ⟨_, .unwritable hbound, by rw [hname]; rfl⟩
  · exact Or.inr ⟨_, .kept (Or.inl hbound), by rw [hname]; rfl⟩

/-- A file has come from one name to another, and all else is as it was. -/
structure Moved (h h' : Host) (p q : Place) (mode : Nat) (content : Bytes) : Prop where
  within : h'.Within h
  owns : h'.owns q = h.owns p
  node : ∀ r, h'.disk.tree.node? r =
    if r = q then some (.file mode content) else if r = p then none else h.disk.tree.node? r
  sameFile : ∀ r, r ≠ p → r ≠ q → (h'.disk.SameFile q r ↔ h.disk.SameFile p r)

theorem moved_move (hsound : h.disk.tree.Sound) {p q : Place} (hp : p ≠ []) (hq : q ≠ [])
    {mode : Nat} {content : Bytes} (hn : h.disk.tree.node? p = some (.file mode content))
    (hfolder : ¬h.disk.tree.HasFolder q) :
    Moved h { h with disk := h.disk.move p q } p q mode content := by
  have hplain : ¬h.disk.tree.HasFolder p := by
    rintro ⟨folderMode, hmode⟩
    rw [hn] at hmode
    cases hmode
  obtain ⟨i, hi, -⟩ := Disk.exists_number? hp hn
  have hnode : ∀ r, (h.disk.move p q).tree.node? r =
      if r = q then some (.file mode content) else if r = p then none else h.disk.tree.node? r := by
    intro r
    rw [Disk.tree_move h.disk hp hn, FileTree.node?_put _ hq]
    split_ifs with hrq hrp
    · rfl
    · rw [hrp, FileTree.node?_erase_self _ hp]
    · exact hsound.node?_erase_of_ne hplain hrp
  -- Below what is no folder there is nothing.
  have hbelow : ∀ {r}, r ≠ p → h.disk.tree.node? r ≠ none → ¬p <+: r := by
    intro r hrp hr hpr
    obtain ⟨n, hn⟩ := Option.ne_none_iff_exists'.mp hr
    exact hrp (hsound.eq_of_prefix hplain hpr hn)
  have hkept : ∀ {r}, h.disk.tree.HasFolder r → r ≠ p ∧ r ≠ q := fun hr =>
    ⟨fun heq => hplain (heq ▸ hr), fun heq => hfolder (heq ▸ hr)⟩
  refine ⟨⟨rfl, rfl, fun r n hr => ?_, fun r hr => ?_, fun r hr => ?_⟩, ?_, hnode,
    fun r hrp hrq => ?_⟩
  · obtain ⟨hr, hfile⟩ := FileTree.frame?_eq_some_iff.mp hr
    rw [hnode] at hr
    split_ifs at hr
    · cases hr
      exact absurd rfl (hfile _ _)
    · exact FileTree.frame?_eq_some_iff.mpr ⟨hr, hfile⟩
  · obtain ⟨hrp, hrq⟩ := hkept hr
    obtain ⟨folderMode, hmode⟩ := hr
    refine ⟨folderMode, ?_⟩
    rw [hnode, if_neg hrq, if_neg hrp, hmode]
  · obtain ⟨hrp, hrq⟩ := hkept hr
    obtain ⟨folderMode, hmode⟩ := hr
    exact Disk.rights?_move_of_ne h.disk hq hrq (hbelow hrp (by simp [hmode]))
  · rw [owns, owns, Disk.rights?_move_self h.disk hq hi]
  · have hnumber := Disk.number?_move h.disk hq hi r
    have hself := Disk.number?_move h.disk hq hi q
    rw [if_neg hrq] at hnumber
    rw [if_pos rfl] at hself
    rw [Disk.sameFile_iff hself, Disk.sameFile_iff hi, hnumber]
    split_ifs with hpr
    · refine iff_of_false (by simp) fun hr => ?_
      exact hbelow hrp (by simp [Disk.node?_of_number? hr]) hpr
    · exact Iff.rfl

/-! ### Permission bits -/

/-- The permission bits of a file are given by its owners only. -/
theorem Reaches.restrict_of_file (hr : h.Reaches folder dir) (hfile : Path.IsFileName file)
    (hcheck : checkPath (Path.under folder file) = .ok ()) {mode : Nat} {content : Bytes}
    (hn : h.disk.tree.node? (dir ++ [file]) = some (.file mode content)) (mode' : Nat) :
    h.restrict (Path.under folder file) mode' =
      if h.owns (dir ++ [file]) then .ok (h.disk.restrict (dir ++ [file]) mode')
      else .error .notPermitted := by
  rw [restrict, hr.find hfile hcheck hn (by simp)]
  rfl

theorem exists_reaches_of_restrict (hfile : Path.IsFileName file) {mode : Nat} {disk : Disk}
    (hdisk : h.restrict (Path.under folder file) mode = .ok disk) :
    (∃ dir, h.Reaches folder dir) ∧ ∃ p, disk = h.disk.restrict p mode := by
  obtain ⟨⟨p, n⟩, hfound, hdisk⟩ := bind_eq_ok_iff.mp hdisk
  dsimp only at hdisk
  split_ifs at hdisk
  exact ⟨(exists_reaches_of_find hfile hfound).2, p, (Except.ok.inj hdisk).symm⟩

/-- Whether or not the permission bits could be given, nothing else changes. -/
theorem bare_changed_restrict (h : Host) (path : String) (mode : Nat) (q : Place) :
    ((h.changed (h.restrict path mode)).2.disk.tree.node? q).map FileTree.bare =
      (h.disk.tree.node? q).map FileTree.bare := by
  cases hrestrict : h.restrict path mode with
  | error why => rfl
  | ok disk =>
      obtain ⟨⟨p, n⟩, -, hdisk⟩ := bind_eq_ok_iff.mp hrestrict
      dsimp only at hdisk
      split_ifs at hdisk
      cases hdisk
      exact Disk.bare_restrict h.disk p mode q

/-- A file has come to permission bits, under each of its names, and all else is as it was. -/
structure Restricted (h h' : Host) (p : Place) (mode : Nat) (content : Bytes) : Prop where
  within : h'.Within h
  owns : h'.owns p = h.owns p
  node : ∀ q, h'.disk.tree.node? q =
    if h.disk.SameFile p q then some (.file mode content) else h.disk.tree.node? q

theorem restricted_restrict {p : Place} (hp : p ≠ []) {mode : Nat} {content : Bytes}
    (hn : h.disk.tree.node? p = some (.file mode content)) (mode' : Nat) :
    Restricted h { h with disk := h.disk.restrict p mode' } p mode' content := by
  have hnode := Disk.node?_restrict h.disk hp hn mode'
  have hrights := Disk.rights?_restrict h.disk hp hn mode'
  have hother : ∀ {q}, h.disk.tree.HasFolder q → ¬h.disk.SameFile p q := by
    rintro q ⟨folderMode, hfolder⟩ hsame
    rw [hsame.node?_eq, hn] at hfolder
    cases hfolder
  refine ⟨⟨rfl, rfl, fun q n hq => ?_, fun q hq => ?_, fun q hq => ?_⟩, ?_, hnode⟩
  · obtain ⟨hq, hfile⟩ := FileTree.frame?_eq_some_iff.mp hq
    rw [hnode] at hq
    split_ifs at hq
    · cases hq
      exact absurd rfl (hfile _ _)
    · exact FileTree.frame?_eq_some_iff.mpr ⟨hq, hfile⟩
  · obtain ⟨folderMode, hfolder⟩ := id hq
    refine ⟨folderMode, ?_⟩
    rw [hnode, if_neg (hother hq), hfolder]
  · rw [hrights, if_neg (hother hq)]
  · rw [owns, owns, hrights, if_pos (.refl _ _)]
    cases h.disk.rights? p <;> rfl

/-! ### A host with one folder -/

/-- A host with a single folder, which is the process's own, and no files. -/
def withFolder : Host where
  disk :=
    { root := ⟨0, 0, FileTree.folderMode⟩
      names := [(["keys"], 0)]
      inode := fun _ => ⟨1000, 1000, .folder FileTree.folderMode⟩ }
  user := ⟨1000, 1000, []⟩
  here := []
  clock := .epoch
  random _ n := List.replicate n 0
  drawn := 0
  fault? := none

/-- The same with something in the folder. -/
def holding (name : String) (n : Inode) : Host :=
  { withFolder with disk := withFolder.disk.make ["keys", name] n }

theorem sound_withFolder : withFolder.disk.tree.Sound := by
  intro p name n hn
  cases p with
  | nil => exact FileTree.hasFolder_root _
  | cons first rest =>
      have hplace : ((first :: rest ++ [name]) == ["keys"]) = false := by
        cases rest <;> simp
      rw [Disk.tree, FileTree.node?, if_neg FileTree.place_ne_nil, withFolder, List.map_cons,
        List.lookup_cons, hplace] at hn
      cases hn

theorem sound_holding (name : String) (n : Inode) : (holding name n).disk.tree.Sound := by
  have hnone : withFolder.disk.tree.node? (["keys"] ++ [name]) = none := by
    rw [Disk.node?_tree _ FileTree.place_ne_nil]
    rfl
  have hplain : ¬withFolder.disk.tree.HasFolder (["keys"] ++ [name]) := by
    rintro ⟨mode, hmode⟩
    rw [hnone] at hmode
    cases hmode
  rw [holding, Disk.tree_make]
  exact sound_withFolder.put ⟨FileTree.folderMode, by rfl⟩ hplain n.node

end TokenAuthority.Host

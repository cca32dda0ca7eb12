import TokenAuthority.Proofs.Files.Change

/-!
# True paths

The true path of a place tells the names that lead there from the root, so a walk along it goes
straight on through folders and comes by no link. A walk that follows links never ends at one,
and the place where it ends is the same by its true path, from wherever the walk begins.
-/

namespace TokenAuthority

namespace Path

/-- A part of a path: what a folder is asked for, or a dot or two. -/
structure IsPart (name : String) : Prop where
  whole : '/' ∉ name.toList
  nonempty : name.toList ≠ []
  endless : '\x00' ∉ name.toList

/-- A name that something in a folder can have and that can stand in a path. -/
structure IsEntry (name : String) : Prop extends IsPart name where
  proper : FileTree.IsProper name

theorem IsEntry.isFileName {name : String} (h : IsEntry name) : IsFileName name :=
  ⟨h.proper, h.whole, h.nonempty⟩

theorem isPart_of_mem_names {path name : String} (hend : '\x00' ∉ path.toList)
    (h : name ∈ names path) : IsPart name := by
  obtain ⟨part, hpart, rfl⟩ := List.mem_map.mp h
  obtain ⟨hsplit, hfull⟩ := List.mem_filter.mp hpart
  have hlist : (String.ofList part).toList = part := String.toList_ofList
  refine ⟨?_, ?_, ?_⟩
  · rw [hlist]
    exact Text.not_mem_of_mem_split hsplit
  · rw [hlist]
    simpa using hfull
  · rw [hlist]
    exact fun hmem => hend (Text.mem_of_mem_split hsplit hmem)

/-! ### The path of names -/

theorem toList_ofNames {ns : List String} (h : ns ≠ []) :
    (ofNames ns).toList = ns.flatMap fun name => '/' :: name.toList := by
  rw [ofNames, String.toList_ofList]
  induction ns with
  | nil => exact absurd rfl h
  | cons name ns ih =>
      cases ns with
      | nil => simp
      | cons next ns =>
          rw [List.flatMap_cons, ← ih (List.cons_ne_nil next ns), List.map_cons, List.map_cons,
            List.intercalate_cons_cons]
          simp

theorem size_ofNames_le {p q : List String} (h : p <+: q) :
    Utf8.size (ofNames p) ≤ Utf8.size (ofNames q) := by
  obtain ⟨below, rfl⟩ := h
  obtain ⟨rest, hrest⟩ : ∃ rest, (ofNames (p ++ below)).toList = (ofNames p).toList ++ rest := by
    by_cases hp : p = []
    · subst hp
      exact ⟨_, by rw [ofNames, ofNames, String.toList_ofList, String.toList_ofList]; rfl⟩
    · refine ⟨below.flatMap fun name => '/' :: name.toList, ?_⟩
      rw [toList_ofNames hp, toList_ofNames (List.append_ne_nil_of_left_ne_nil hp below),
        List.flatMap_append]
  have happend : ofNames (p ++ below) = ofNames p ++ String.ofList rest := by
    rw [← String.toList_inj, hrest, String.toList_append, String.toList_ofList]
  rw [happend, Utf8.size, Utf8.size, String.utf8ByteSize_append]
  exact Nat.le_add_right _ _

theorem isFolderForm_ofNames {ns : List String} (h : ∀ name ∈ ns, IsFileName name) (hne : ns ≠ []) :
    isFolderForm (ofNames ns) = false := by
  obtain ⟨above, last, rfl⟩ := (List.eq_nil_or_concat ns).resolve_left hne
  rw [List.concat_eq_append] at h ⊢
  have hlast := h last (by simp)
  have hmem := List.getLast_mem hlast.nonempty
  rw [isFolderForm, toList_ofNames (by simp), List.flatMap_append, List.flatMap_singleton,
    List.getLast?_append, List.getLast?_cons, List.getLast?_eq_some_getLast hlast.nonempty]
  refine beq_eq_false_iff_ne.mpr ?_
  intro heq
  rw [Option.some_or, Option.getD_some, Option.some.injEq] at heq
  rw [heq] at hmem
  exact hlast.whole hmem

theorem endless_ofNames {ns : List String} (h : ∀ name ∈ ns, IsEntry name) :
    '\x00' ∉ (ofNames ns).toList := by
  by_cases hne : ns = []
  · subst hne
    decide
  · rw [toList_ofNames hne, List.mem_flatMap]
    rintro ⟨name, hname, hmem⟩
    obtain hslash | hmem := List.mem_cons.mp hmem
    · exact absurd hslash (by decide)
    · exact (h name hname).endless hmem

end Path

namespace FileTree

open TokenAuthority.Path

/-! ### Trees as they can be -/

/-- A tree as a file system can have it: everything stands in a folder, under a name that a path
can tell, and no link aims at what no path can tell. Links may lead nowhere or in a circle. -/
structure Real (t : FileTree) : Prop where
  sound : t.Sound
  named : ∀ p n, t.node? p = some n → ∀ name ∈ p, IsEntry name
  aimed : ∀ p target, t.node? p = some (.link target) → '\x00' ∉ target.toList

variable {t : FileTree} {here p : Place} {n : Node} {follow : Bool} {names : List String}

/-! ### Where walks end -/

/-- How a stride comes to its halt, name by name. -/
inductive Goes (t : FileTree) (follow : Bool) : Place → List String → Halt → Prop
  | nil {here : Place} :
    Goes t follow here [] (.reached here ((t.node? here).getD (.folder folderMode)))
  | dot {here : Place} {rest : List String} {halt : Halt} (behind : Goes t follow here rest halt) :
    Goes t follow here ("." :: rest) halt
  | dots {here : Place} {rest : List String} {halt : Halt}
    (behind : Goes t follow here.dropLast rest halt) : Goes t follow here (".." :: rest) halt
  | folder {here : Place} {name : String} {rest : List String} {halt : Halt} {mode : Nat}
    (proper : IsProper name) (node : t.node? (here ++ [name]) = some (.folder mode))
    (behind : Goes t follow (here ++ [name]) rest halt) : Goes t follow here (name :: rest) halt
  | file {here : Place} {name : String} {mode : Nat} {content : Bytes} (proper : IsProper name)
    (node : t.node? (here ++ [name]) = some (.file mode content)) :
    Goes t follow here [name] (.reached (here ++ [name]) (.file mode content))
  | link {here : Place} {name : String} {rest : List String} {target : String}
    (proper : IsProper name) (node : t.node? (here ++ [name]) = some (.link target))
    (followed : ¬(rest = [] ∧ (!follow) = true)) :
    Goes t follow here (name :: rest) (.atLink here target rest)
  | linkItself {here : Place} {name : String} {target : String} (proper : IsProper name)
    (node : t.node? (here ++ [name]) = some (.link target)) (unfollowed : (!follow) = true) :
    Goes t follow here [name] (.reached (here ++ [name]) (.link target))
  | vacant {here : Place} {name : String} (proper : IsProper name)
    (node : t.node? (here ++ [name]) = none) :
    Goes t follow here [name] (.vacant (here ++ [name]))

theorem stride_of_proper {name : String} (h : IsProper name) (rest : List String) :
    t.stride follow here (name :: rest) =
      match t.node? (here ++ [name]) with
      | none => if rest = [] then .ok (.vacant (here ++ [name])) else .error .notFound
      | some (.folder _) => t.stride follow (here ++ [name]) rest
      | some (.link target) =>
        if rest = [] ∧ !follow then .ok (.reached (here ++ [name]) (.link target))
        else .ok (.atLink here target rest)
      | some n => if rest = [] then .ok (.reached (here ++ [name]) n) else .error .notFolder := by
  rw [stride, if_neg h.1, if_neg h.2.1]
  exact if_neg (Nat.not_lt.mpr h.2.2)

theorem goes_of_stride {halt : Halt} (h : t.stride follow here names = .ok halt) :
    t.Goes follow here names halt := by
  induction names generalizing here with
  | nil =>
      cases h
      exact .nil
  | cons name rest ih =>
      by_cases hdot : name = "."
      · subst hdot
        exact .dot (ih h)
      by_cases hdots : name = ".."
      · subst hdots
        exact .dots (ih h)
      by_cases hlong : longestName < Utf8.size name
      · rw [stride, if_neg hdot, if_neg hdots, if_pos hlong] at h
        cases h
      have hproper : IsProper name := ⟨hdot, hdots, Nat.not_lt.mp hlong⟩
      rw [stride_of_proper hproper] at h
      cases hnode : t.node? (here ++ [name]) with
      | none =>
          rw [hnode] at h
          dsimp only at h
          split_ifs at h with hrest
          cases h
          rw [hrest]
          exact .vacant hproper hnode
      | some n =>
          rw [hnode] at h
          cases n with
          | folder mode => exact .folder hproper hnode (ih h)
          | file mode content =>
              dsimp only at h
              split_ifs at h with hrest
              cases h
              rw [hrest]
              exact .file hproper hnode
          | link target =>
              dsimp only at h
              split_ifs at h with hrest
              · cases h
                rw [hrest.1]
                exact .linkItself hproper hnode hrest.2
              · cases h
                exact .link hproper hnode hrest

theorem Goes.stride_eq {halt : Halt} (h : t.Goes follow here names halt) :
    t.stride follow here names = .ok halt := by
  induction h with
  | nil => rfl
  | dot _ ih => exact ih
  | dots _ ih => exact ih
  | folder proper node _ ih =>
      rw [stride_of_proper proper, node]
      exact ih
  | file proper node =>
      rw [stride_of_proper proper, node]
      rfl
  | link proper node followed =>
      rw [stride_of_proper proper, node]
      exact if_neg followed
  | linkItself proper node unfollowed =>
      rw [stride_of_proper proper, node]
      exact if_pos ⟨rfl, unfollowed⟩
  | vacant proper node =>
      rw [stride_of_proper proper, node]
      rfl

theorem stride_eq_ok_iff {halt : Halt} :
    t.stride follow here names = .ok halt ↔ t.Goes follow here names halt :=
  ⟨goes_of_stride, Goes.stride_eq⟩

/-- A stride that follows links reaches none. -/
theorem Goes.ne_link {halt : Halt} (h : t.Goes true here names halt) (hsound : t.Sound)
    (hhere : t.HasFolder here) (target : String) : halt ≠ .reached p (.link target) := by
  induction h with
  | nil =>
      obtain ⟨mode, hmode⟩ := hhere
      rw [hmode]
      exact nofun
  | dot _ ih => exact ih hhere
  | dots _ ih => exact ih (hsound.hasFolder_dropLast hhere)
  | folder _ node _ ih => exact ih ⟨_, node⟩
  | file _ _ => exact nofun
  | link _ _ _ => exact nofun
  | linkItself _ _ unfollowed => cases unfollowed
  | vacant _ _ => exact nofun

/-- The names behind a link are among those of the stride, and the link is in its folder. -/
theorem Goes.of_atLink {folder : Place} {target : String} {rest : List String}
    (h : t.Goes follow here names (.atLink folder target rest)) :
    (∃ name, t.node? (folder ++ [name]) = some (.link target)) ∧ rest ⊆ names := by
  generalize hhalt : Halt.atLink folder target rest = halt at h
  induction h with
  | nil => cases hhalt
  | dot _ ih => exact (ih hhalt).imp_right (List.subset_cons_of_subset _)
  | dots _ ih => exact (ih hhalt).imp_right (List.subset_cons_of_subset _)
  | folder _ _ _ ih => exact (ih hhalt).imp_right (List.subset_cons_of_subset _)
  | file _ _ => cases hhalt
  | link _ node _ =>
      cases hhalt
      exact ⟨⟨_, node⟩, List.subset_cons_self _ _⟩
  | linkItself _ _ _ => cases hhalt
  | vacant _ _ => cases hhalt

/-- A vacant place is under a name of the stride. -/
theorem Goes.of_vacant (h : t.Goes follow here names (.vacant p)) :
    ∃ folder name, p = folder ++ [name] ∧ IsProper name ∧ name ∈ names := by
  generalize hhalt : Halt.vacant p = halt at h
  induction h with
  | nil => cases hhalt
  | dot _ ih =>
      obtain ⟨folder, name, hp, hproper, hname⟩ := ih hhalt
      exact ⟨folder, name, hp, hproper, List.mem_cons_of_mem _ hname⟩
  | dots _ ih =>
      obtain ⟨folder, name, hp, hproper, hname⟩ := ih hhalt
      exact ⟨folder, name, hp, hproper, List.mem_cons_of_mem _ hname⟩
  | folder _ _ _ ih =>
      obtain ⟨folder, name, hp, hproper, hname⟩ := ih hhalt
      exact ⟨folder, name, hp, hproper, List.mem_cons_of_mem _ hname⟩
  | file _ _ => cases hhalt
  | link _ _ _ => cases hhalt
  | linkItself _ _ _ => cases hhalt
  | vacant proper _ =>
      cases hhalt
      exact ⟨_, _, rfl, proper, List.mem_cons_self⟩

/-- In a real tree a walk to a vacant place ends with a name that something can have there. -/
theorem Real.isEntry_of_walk (h : t.Real) (hnames : ∀ name ∈ names, IsPart name) {links : Nat}
    (hwalk : t.walk follow links here names = .ok (.free p)) :
    ∃ folder name, p = folder ++ [name] ∧ IsEntry name := by
  induction links generalizing here names with
  | zero => cases hwalk
  | succ links ih =>
      rw [walk] at hwalk
      obtain ⟨halt, hhalt, hnext⟩ := bind_eq_ok_iff.mp hwalk
      have hgoes := stride_eq_ok_iff.mp hhalt
      cases halt with
      | reached q n => cases hnext
      | vacant q =>
          cases hnext
          obtain ⟨folder, name, hp, hproper, hname⟩ := hgoes.of_vacant
          exact ⟨folder, name, hp, hnames name hname, hproper⟩
      | atLink folder target rest =>
          obtain ⟨⟨name, hnode⟩, hrest⟩ := hgoes.of_atLink
          refine ih (fun name hname => ?_) hnext
          obtain htarget | hbehind := List.mem_append.mp hname
          · exact isPart_of_mem_names (h.aimed _ _ hnode) htarget
          · exact hnames name (hrest hbehind)

theorem Sound.walk_ne_link (h : t.Sound) (hhere : t.HasFolder here) {links : Nat}
    {target : String} : t.walk true links here names ≠ .ok (.taken p (.link target)) := by
  intro hwalk
  induction links generalizing here names with
  | zero => cases hwalk
  | succ links ih =>
      rw [walk] at hwalk
      obtain ⟨halt, hhalt, hnext⟩ := bind_eq_ok_iff.mp hwalk
      have hgoes := stride_eq_ok_iff.mp hhalt
      cases halt with
      | reached q n =>
          cases hnext
          exact hgoes.ne_link h hhere target rfl
      | vacant q => cases hnext
      | atLink folder target' rest =>
          refine ih ?_ hnext
          split_ifs
          · exact t.hasFolder_root
          · exact h.stands_stride hhere hhalt

/-- What an absolute path leads to stands at the end of its walk, and is no link. -/
theorem Sound.node?_of_find (h : t.Sound) {path : String} (habsolute : isAbsolute path = true)
    (hfind : t.find here path = .ok (p, n)) :
    t.node? p = some n ∧ ∀ target, n ≠ .link target := by
  obtain ⟨x, hspot, hend⟩ := bind_eq_ok_iff.mp hfind
  obtain ⟨_, -, hwalk⟩ := bind_eq_ok_iff.mp hspot
  rw [habsolute, if_pos rfl] at hwalk
  have hstands := h.stands_walk t.hasFolder_root hwalk
  cases x with
  | free q => cases hend
  | taken q n' =>
      cases hend
      refine ⟨hstands, ?_⟩
      rintro target rfl
      exact h.walk_ne_link t.hasFolder_root hwalk

/-! ### Straight walks -/

/-- Names lead straight on if folders stand on the way, and no link at its end. -/
theorem goes_straight (hproper : ∀ name ∈ names, IsProper name)
    (hfolders : ∀ q, q <+: names → q ≠ names → t.HasFolder (here ++ q))
    (hn : t.node? (here ++ names) = some n) (hlink : ∀ target, n ≠ .link target) :
    t.Goes follow here names (.reached (here ++ names) n) := by
  induction names generalizing here with
  | nil =>
      rw [List.append_nil] at hn ⊢
      have hend : (t.node? here).getD (.folder folderMode) = n := by rw [hn]; rfl
      rw [← hend]
      exact .nil
  | cons name rest ih =>
      have hname := hproper name List.mem_cons_self
      by_cases hrest : rest = []
      · subst hrest
        cases n with
        | folder mode =>
            have hend : (t.node? (here ++ [name])).getD (.folder folderMode) = .folder mode := by
              rw [hn]
              rfl
            refine .folder hname hn ?_
            rw [← hend]
            exact .nil
        | file mode content => exact .file hname hn
        | link target => exact absurd rfl (hlink target)
      · obtain ⟨mode, hmode⟩ := hfolders [name] ⟨rest, rfl⟩ (by simpa using Ne.symm hrest)
        rw [List.append_cons] at hn ⊢
        refine .folder hname hmode (ih (fun other hother => ?_) (fun q hq hne => ?_) hn)
        · exact hproper other (List.mem_cons_of_mem _ hother)
        · rw [List.append_assoc]
          exact hfolders (name :: q) (List.cons_prefix_cons.mpr ⟨rfl, hq⟩) (by simpa using hne)

/-- Names without dots pass what stands on the way down only. -/
theorem prefix_of_mem_passed (hproper : ∀ name ∈ names, IsProper name) {q : Place}
    (hq : q ∈ t.passed here names) : q <+: here ++ names := by
  induction names generalizing here with
  | nil => cases hq
  | cons name rest ih =>
      obtain ⟨hdot, hdots, -⟩ := hproper name List.mem_cons_self
      have hfirst : here ++ [name] <+: here ++ name :: rest := ⟨rest, by simp⟩
      rw [passed, if_neg hdot, if_neg hdots] at hq
      dsimp only at hq
      split at hq
      · obtain rfl | hq := List.mem_cons.mp hq
        · exact hfirst
        · rw [List.append_cons]
          exact ih (fun other hother => hproper other (List.mem_cons_of_mem _ hother)) hq
      · rw [List.mem_singleton.mp hq]
        exact hfirst

/-- Above whatever stands somewhere there are only folders. -/
theorem Sound.hasFolder_above (h : t.Sound) (hn : t.node? p = some n) {q : Place} (hq : q <+: p)
    (hne : q ≠ p) : t.HasFolder q := by
  obtain ⟨below, rfl⟩ := hq
  obtain rfl | ⟨between, last, rfl⟩ := List.eq_nil_or_concat below
  · rw [List.append_nil] at hne
    exact absurd rfl hne
  · rw [List.concat_eq_append, ← List.append_assoc] at hn
    exact h.hasFolder_of_prefix (h _ _ _ hn) (List.prefix_append q between)

section

variable (h : t.Real) (hn : t.node? p = some n) (hlink : ∀ target, n ≠ .link target)
include h hn hlink

theorem Real.goes_of_node? (follow : Bool) : t.Goes follow [] p (.reached p n) :=
  goes_straight (fun name hname => (h.named p n hn name hname).proper)
    (fun _ hq hne => h.sound.hasFolder_above hn hq hne) hn hlink

/-- What is no link is found under its true path. -/
theorem Real.find_ofNames (hpath : hasPath p = true) (here : Place) :
    t.find here (Path.ofNames p) = .ok (p, n) := by
  have hentries := h.named p n hn
  have hnames := names_ofNames fun name hname => (hentries name hname).isFileName
  have hcheck : checkPath (Path.ofNames p) = .ok () := by
    rw [hasPath, decide_eq_true_eq] at hpath
    have hend : ¬((Path.ofNames p).toList.contains '\x00' = true) := by
      rw [List.contains_iff_mem]
      exact endless_ofNames hentries
    have hempty : Path.ofNames p ≠ "" := by
      rw [Ne, ← String.toList_inj, Path.ofNames, String.toList_ofList]
      exact List.cons_ne_nil _ _
    rw [checkPath, if_neg hend, if_neg hempty, if_neg (Nat.not_lt.mpr hpath)]
  have hwalk : t.walk true (mostLinks + 1) [] (if isFolderForm (Path.ofNames p) then p ++ ["."]
      else p) = .ok (.taken p n) := by
    have hgoes := h.goes_of_node? hn hlink true
    by_cases hroot : p = []
    · subst hroot
      have hform : isFolderForm (Path.ofNames []) = true := by decide
      rw [if_pos hform, List.nil_append, walk, stride_eq_ok_iff.mpr (.dot hgoes)]
      rfl
    · rw [isFolderForm_ofNames (fun name hname => (hentries name hname).isFileName) hroot,
        if_neg Bool.false_ne_true, walk, stride_eq_ok_iff.mpr hgoes]
      rfl
  rw [find, spot, hcheck, hnames, isAbsolute_ofNames]
  change (t.walk true (mostLinks + 1) [] (if isFolderForm (Path.ofNames p) then p ++ ["."]
      else p) >>= _) = _
  rw [hwalk]
  rfl

/-- The way to a place along its true path comes by what is above it, and by itself. -/
theorem Real.prefix_of_mem_way {links : Nat} {q : Place} (hq : q ∈ t.way links [] p) : q <+: p := by
  cases links with
  | zero => cases hq
  | succ links =>
      rw [way, stride_eq_ok_iff.mpr (h.goes_of_node? hn hlink true)] at hq
      dsimp only at hq
      rw [List.append_nil] at hq
      exact prefix_of_mem_passed (fun name hname => (h.named p n hn name hname).proper) hq

/-- A true path is its own true path. -/
theorem Real.resolve_ofNames (hpath : hasPath p = true) (here : Place) :
    t.resolve here (Path.ofNames p) = .ok (Path.ofNames p) := by
  have hnames := names_ofNames fun name hname => (h.named p n hn name hname).isFileName
  have hall : (p :: t.way (mostLinks + 1) [] p).all hasPath = true := by
    rw [List.all_eq_true]
    intro q hq
    have hbelow : q <+: p := by
      obtain rfl | hq := List.mem_cons.mp hq
      · exact List.prefix_rfl
      · exact h.prefix_of_mem_way hn hlink hq
    rw [hasPath, decide_eq_true_eq] at hpath ⊢
    exact Nat.le_trans (size_ofNames_le hbelow) hpath
  rw [resolve, h.find_ofNames hn hlink hpath here, isAbsolute_ofNames, hnames]
  exact if_pos hall

end

theorem resolve_eq_ok {path path' : String} (h : t.resolve here path = .ok path') :
    ∃ p n, t.find here path = .ok (p, n) ∧ hasPath p = true ∧ path' = Path.ofNames p := by
  obtain ⟨⟨p, n⟩, hfind, h⟩ := bind_eq_ok_iff.mp h
  dsimp only at h
  generalize t.way (mostLinks + 1) (if isAbsolute path then [] else here) (names path) = way at h
  split_ifs at h with hall
  cases h
  rw [List.all_cons, Bool.and_eq_true] at hall
  exact ⟨p, n, hfind, hall.1, rfl⟩

end FileTree

end TokenAuthority

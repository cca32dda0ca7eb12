import TokenAuthority.Proofs.Files.Folder

/-!
# What a change does to a tree

Whatever links a path leads through, writing changes one place, in a folder, where a file
stands afterwards; and giving permission bits changes no content and no link. So the frame of
a tree, and with it all ways to folders, outlast a file that is written.
-/

namespace TokenAuthority.FileTree

variable {t t' : FileTree} {here : Place}

/-! ### Where walks end -/

/-- What a halt tells of its place is so. -/
def Halt.Stands (t : FileTree) : Halt → Prop
  | .reached p n => t.node? p = some n
  | .vacant p => ∃ folder name, p = folder ++ [name] ∧ t.HasFolder folder ∧ t.node? p = none
  | .atLink folder _ _ => t.HasFolder folder

/-- What the end of a walk tells of its place is so. -/
def Spot.Stands (t : FileTree) : Spot → Prop
  | .taken p n => t.node? p = some n
  | .free p => ∃ folder name, p = folder ++ [name] ∧ t.HasFolder folder ∧ t.node? p = none

theorem Sound.stands_stride (hsound : t.Sound) {follow : Bool} {names : List String} {halt : Halt}
    (hhere : t.HasFolder here) (h : t.stride follow here names = .ok halt) : halt.Stands t := by
  induction names generalizing here with
  | nil =>
      obtain ⟨mode, hmode⟩ := hhere
      rw [stride, hmode] at h
      cases h
      exact hmode
  | cons name rest ih =>
      rw [stride] at h
      by_cases hdot : name = "."
      · rw [if_pos hdot] at h
        exact ih hhere h
      by_cases hdots : name = ".."
      · rw [if_neg hdot, if_pos hdots] at h
        exact ih (hsound.hasFolder_dropLast hhere) h
      by_cases hlong : longestName < Utf8.size name
      · rw [if_neg hdot, if_neg hdots, if_pos hlong] at h
        cases h
      rw [if_neg hdot, if_neg hdots, if_neg hlong] at h
      dsimp only at h
      cases hnode : t.node? (here ++ [name]) with
      | none =>
          rw [hnode] at h
          dsimp only at h
          split at h
          · cases h
            exact ⟨here, name, rfl, hhere, hnode⟩
          · cases h
      | some n =>
          rw [hnode] at h
          cases n with
          | folder mode => exact ih ⟨mode, hnode⟩ h
          | file mode content =>
              dsimp only at h
              split at h
              · cases h
                exact hnode
              · cases h
          | link target =>
              dsimp only at h
              split at h
              · cases h
                exact hnode
              · cases h
                exact hhere

theorem Sound.stands_walk (hsound : t.Sound) {follow : Bool} {links : Nat} {names : List String}
    {x : Spot} (hhere : t.HasFolder here) (h : t.walk follow links here names = .ok x) :
    x.Stands t := by
  induction links generalizing here names with
  | zero => cases h
  | succ links ih =>
      rw [walk] at h
      obtain ⟨halt, hhalt, hnext⟩ := bind_eq_ok_iff.mp h
      have hstands := hsound.stands_stride hhere hhalt
      cases halt with
      | reached p n =>
          cases hnext
          exact hstands
      | vacant p =>
          cases hnext
          exact hstands
      | atLink folder target rest =>
          refine ih ?_ hnext
          split_ifs
          · exact t.hasFolder_root
          · exact hstands

theorem Sound.stands_spot (hsound : t.Sound) (hhere : t.HasFolder here) {follow slash : Bool}
    {path : String} {x : Spot} (h : t.spot follow slash here path = .ok x) : x.Stands t := by
  obtain ⟨_, -, h⟩ := bind_eq_ok_iff.mp h
  refine hsound.stands_walk ?_ h
  split_ifs
  · exact t.hasFolder_root
  · exact hhere

/-- A walk to a name in a folder comes to the folder, whatever the name leads to then. -/
theorem exists_folderWalk_of_walk {follow : Bool} {links : Nat} {names : List String}
    {last : String} {x : Spot} (h : t.walk follow links here (names ++ [last]) = .ok x) :
    ∃ p, t.folderWalk links here names = .ok p := by
  -- Both walks halt at the same links, and begin anew from there with one link fewer.
  induction links generalizing here names with
  | zero => cases h
  | succ links ih =>
      rw [walk, stride_append] at h
      rw [folderWalk]
      obtain ⟨halt, hhalt, hnext⟩ := bind_eq_ok_iff.mp h
      obtain ⟨folderHalt, hfolder, hhalt⟩ := bind_eq_ok_iff.mp hhalt
      rw [hfolder]
      cases folderHalt with
      | inFolder p => exact ⟨p, rfl⟩
      | atLink folder target rest =>
          cases hhalt
          dsimp only at hnext
          rw [← List.append_assoc] at hnext
          exact ih hnext

theorem exists_folderOf_of_spot {follow : Bool} {folder file : String} {x : Spot}
    (hfile : Path.IsFileName file)
    (h : t.spot follow true here (Path.under folder file) = .ok x) :
    checkPath (Path.under folder file) = .ok () ∧ ∃ dir, t.folderOf here folder = .ok dir := by
  rw [spot, Path.names_under hfile, Path.isAbsolute_under hfile,
    Path.isFolderForm_under hfile] at h
  obtain ⟨_, hcheck, h⟩ := bind_eq_ok_iff.mp h
  exact ⟨hcheck, exists_folderWalk_of_walk h⟩

/-! ### Writing -/

/-- Writing gives one place in a folder, where the path leads, a file with the content. -/
theorem exists_place_of_write (hsound : t.Sound) (hhere : t.HasFolder here) {path : String}
    {mode : Nat} {content : Bytes} (h : t.write here path mode content = .ok t') :
    ∃ folder name mode', t.Free folder name ∧
      t.spot true true here path = .ok (t.under folder name) ∧
      t' = t.put (folder ++ [name]) (.file mode' content) := by
  obtain ⟨x, hx, h⟩ := bind_eq_ok_iff.mp h
  have hstands := hsound.stands_spot hhere hx
  cases x with
  | free p =>
      obtain ⟨folder, name, rfl, hfolder, hnone⟩ := hstands
      cases h
      refine ⟨folder, name, mode, ⟨hfolder, frame?_eq_none_iff.mpr (Or.inl hnone)⟩, ?_, rfl⟩
      rw [hx, FileTree.under, hnone]
  | taken p n =>
      cases n with
      | folder mode => cases h
      | link target => cases h
      | file mode' content' =>
          cases h
          obtain rfl | ⟨folder, name, rfl⟩ := List.eq_nil_or_concat p
          · cases hstands
          · rw [List.concat_eq_append] at hstands hx ⊢
            refine ⟨folder, name, mode', ⟨hsound _ _ _ hstands,
              frame?_eq_none_iff.mpr (Or.inr ⟨mode', content', hstands⟩)⟩, ?_, rfl⟩
            rw [hx, FileTree.under, hstands]

/-! ### Permission bits -/

/-- A node without its permission bits. -/
def bare : Node → Node
  | .folder _ => .folder 0
  | .file _ content => .file 0 content
  | .link target => .link target

/-- Permission bits are given to what stands at one place, and nothing else changes. -/
theorem exists_place_of_restrict (hsound : t.Sound) (hhere : t.HasFolder here) {path : String}
    {mode : Nat} (h : t.restrict here path mode = .ok t') :
    ∃ p n, t.find here path = .ok (p, n) ∧ t.node? p = some n ∧
      ((∃ mode' content, n = .file mode' content ∧ t' = t.put p (.file mode content)) ∨
        ∃ mode', n = .folder mode' ∧ t' = if p = [] then t else t.put p (.folder mode)) := by
  obtain ⟨⟨p, n⟩, hfind, h⟩ := bind_eq_ok_iff.mp h
  have hnode : t.node? p = some n := by
    obtain ⟨x, hx, hend⟩ := bind_eq_ok_iff.mp hfind
    have hstands := hsound.stands_spot hhere hx
    cases x with
    | free q => cases hend
    | taken q n' =>
        cases hend
        exact hstands
  refine ⟨p, n, hfind, hnode, ?_⟩
  cases n with
  | file mode' content =>
      cases h
      exact Or.inl ⟨mode', content, rfl, rfl⟩
  | folder mode' =>
      refine Or.inr ⟨mode', rfl, ?_⟩
      cases h
      rfl
  | link target => cases h

theorem node?_eq_link_of_bare {q : Place} (h : (t'.node? q).map bare = (t.node? q).map bare)
    {target : String} (hq : t.node? q = some (.link target)) :
    t'.node? q = some (.link target) := by
  rw [hq] at h
  obtain ⟨n, hn, hbare⟩ := Option.map_eq_some_iff.mp h
  cases n <;> cases hbare
  exact hn

theorem exists_node?_eq_file_of_bare {q : Place}
    (h : (t'.node? q).map bare = (t.node? q).map bare) {mode : Nat} {content : Bytes}
    (hq : t.node? q = some (.file mode content)) :
    ∃ mode', t'.node? q = some (.file mode' content) := by
  rw [hq] at h
  obtain ⟨n, hn, hbare⟩ := Option.map_eq_some_iff.mp h
  cases n <;> cases hbare
  exact ⟨_, hn⟩

/-- Giving permission bits changes nothing else, wherever the path leads. -/
theorem bare_of_restrict (hsound : t.Sound) (hhere : t.HasFolder here) {path : String} {mode : Nat}
    (h : t.restrict here path mode = .ok t') (q : Place) :
    (t'.node? q).map bare = (t.node? q).map bare := by
  obtain ⟨p, n, -, hn, hchange⟩ := exists_place_of_restrict hsound hhere h
  by_cases hp : p = []
  · obtain ⟨mode', content, rfl, -⟩ | ⟨mode', -, rfl⟩ := hchange
    · rw [hp] at hn
      cases hn
    · rw [if_pos hp]
  · obtain ⟨mode', content, rfl, rfl⟩ | ⟨mode', rfl, rfl⟩ := hchange
    · rw [node?_put t hp]
      split_ifs with hq
      · rw [hq, hn]
        rfl
      · rfl
    · rw [if_neg hp, node?_put t hp]
      split_ifs with hq
      · rw [hq, hn]
        rfl
      · rfl

end TokenAuthority.FileTree

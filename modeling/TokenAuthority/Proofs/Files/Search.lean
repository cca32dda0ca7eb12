import TokenAuthority.Proofs.Files.Folder

/-!
# Folders on the way

A walk looks every name up in a folder. The folders of a walk to a file in a folder are those of
the walk to the folder, and that folder itself; and they are the same in every tree that has the
folders and links of the way.
-/

namespace TokenAuthority.FileTree

variable {t t' : FileTree} {here dir : Place} {names : List String} {last : String} {links : Nat}

/-! ### Strides -/

theorem asked_dot (t : FileTree) (here : Place) (rest : List String) :
    t.asked here ("." :: rest) = here :: t.asked here rest := by
  rw [asked, if_pos rfl]

theorem asked_dots (t : FileTree) (here : Place) (rest : List String) :
    t.asked here (".." :: rest) = here :: t.asked here.dropLast rest := by
  rw [asked, if_neg (by decide), if_pos rfl]

theorem asked_folder {name : String} (h : IsProper name) {mode : Nat}
    (hnode : t.node? (here ++ [name]) = some (.folder mode)) (rest : List String) :
    t.asked here (name :: rest) = here :: t.asked (here ++ [name]) rest := by
  rw [asked, if_neg h.1, if_neg h.2.1, if_neg (Nat.not_lt.mpr h.2.2), hnode]

theorem asked_link {name : String} (h : IsProper name) {target : String}
    (hnode : t.node? (here ++ [name]) = some (.link target)) (rest : List String) :
    t.asked here (name :: rest) = [here] := by
  rw [asked, if_neg h.1, if_neg h.2.1, if_neg (Nat.not_lt.mpr h.2.2), hnode]

theorem asked_singleton (t : FileTree) (here : Place) (name : String) :
    t.asked here [name] = [here] := by
  rw [asked]
  split_ifs
  · rfl
  · rfl
  · rfl
  · split <;> rfl

/-- The folder that a stride has come to, if it has. -/
def FolderHalt.reached : FolderHalt → List Place
  | inFolder p => [p]
  | atLink _ _ _ => []

/-- Behind a stride to a folder, one more name is looked up in the folder. -/
theorem asked_append {halt : FolderHalt} (h : t.Strides here names halt) (last : String) :
    t.asked here (names ++ [last]) = t.asked here names ++ halt.reached := by
  induction h with
  | nil here => exact asked_singleton t here last
  | dot _ ih => rw [List.cons_append, asked_dot, asked_dot, ih, List.cons_append]
  | dots _ ih => rw [List.cons_append, asked_dots, asked_dots, ih, List.cons_append]
  | folder proper node _ ih =>
      rw [List.cons_append, asked_folder proper node, asked_folder proper node, ih,
        List.cons_append]
  | link proper node =>
      rw [List.cons_append, asked_link proper node, asked_link proper node]
      rfl

theorem asked_of_frame?_le {halt : FolderHalt} (h : t.Strides here names halt)
    (hframe : ∀ p n, t.frame? p = some n → t'.frame? p = some n) :
    t'.asked here names = t.asked here names := by
  induction h with
  | nil here => rfl
  | dot _ ih => rw [asked_dot, asked_dot, ih]
  | dots _ ih => rw [asked_dots, asked_dots, ih]
  | folder proper node _ ih =>
      rw [asked_folder proper node,
        asked_folder proper (node?_of_frame?_le hframe node (by simp)), ih]
  | link proper node =>
      rw [asked_link proper node, asked_link proper (node?_of_frame?_le hframe node (by simp))]

theorem Sound.hasFolder_of_mem_asked (hsound : t.Sound) {halt : FolderHalt}
    (h : t.Strides here names halt) (hhere : t.HasFolder here) {q : Place}
    (hq : q ∈ t.asked here names) : t.HasFolder q := by
  induction h with
  | nil here => cases hq
  | dot _ ih =>
      rw [asked_dot, List.mem_cons] at hq
      obtain rfl | hq := hq
      · exact hhere
      · exact ih hhere hq
  | dots _ ih =>
      rw [asked_dots, List.mem_cons] at hq
      obtain rfl | hq := hq
      · exact hhere
      · exact ih (hsound.hasFolder_dropLast hhere) hq
  | folder proper node _ ih =>
      rw [asked_folder proper node, List.mem_cons] at hq
      obtain rfl | hq := hq
      · exact hhere
      · exact ih ⟨_, node⟩ hq
  | link proper node =>
      rw [asked_link proper node, List.mem_singleton] at hq
      exact hq ▸ hhere

/-! ### Walks -/

/-- The folders in which a walk to a folder looks names up. -/
def folderSearched (t : FileTree) : Nat → Place → List String → List Place
  | 0, _, _ => []
  | links + 1, here, names =>
    t.asked here names ++
      match t.folderStride here names with
      | .ok (.atLink folder target rest) =>
        t.folderSearched links (if Path.isAbsolute target then [] else folder)
          (Path.names target ++ rest)
      | _ => []

theorem stride_append_inFolder {p : Place} (h : t.folderStride here names = .ok (.inFolder p))
    (follow : Bool) (last : String) :
    t.stride follow here (names ++ [last]) = t.stride follow p [last] := by
  rw [stride_append, h]
  rfl

theorem stride_append_atLink {folder : Place} {target : String} {rest : List String}
    (h : t.folderStride here names = .ok (.atLink folder target rest)) (follow : Bool)
    (last : String) :
    t.stride follow here (names ++ [last]) = .ok (.atLink folder target (rest ++ [last])) := by
  rw [stride_append, h]
  rfl

/-- A walk to a name in a folder searches the folder too. -/
theorem folderSearched_prefix (follow : Bool) (last : String)
    (h : t.folderWalk links here names = .ok dir) :
    t.folderSearched links here names ++ [dir] <+:
      t.searched follow links here (names ++ [last]) := by
  induction links generalizing here names with
  | zero => cases h
  | succ links ih =>
      obtain ⟨halt, hhalt, hnext⟩ := bind_eq_ok_iff.mp h
      rw [folderSearched, searched, asked_append (folderStride_eq_ok_iff.mp hhalt), hhalt]
      cases halt with
      | inFolder p =>
          cases hnext
          dsimp only [FolderHalt.reached]
          rw [List.append_nil]
          exact List.prefix_append _ _
      | atLink folder target rest =>
          have hlinks := ih hnext
          rw [List.append_assoc] at hlinks
          rw [stride_append_atLink hhalt]
          dsimp only [FolderHalt.reached]
          rw [List.append_nil, List.append_assoc]
          exact (List.prefix_append_right_inj _).mpr hlinks

/-- Unless it leads on through a link, it searches nothing else. -/
theorem searched_append (hlast : IsProper last) {follow : Bool}
    (h : t.folderWalk links here names = .ok dir)
    (hlink : follow → ∀ target, t.node? (dir ++ [last]) ≠ some (.link target)) :
    t.searched follow links here (names ++ [last]) =
      t.folderSearched links here names ++ [dir] := by
  induction links generalizing here names with
  | zero => cases h
  | succ links ih =>
      obtain ⟨halt, hhalt, hnext⟩ := bind_eq_ok_iff.mp h
      rw [folderSearched, searched, asked_append (folderStride_eq_ok_iff.mp hhalt), hhalt]
      cases halt with
      | inFolder p =>
          cases hnext
          rw [stride_append_inFolder hhalt, stride_last t hlast hlink]
          cases t.node? (dir ++ [last]) <;> simp [FolderHalt.reached]
      | atLink folder target rest =>
          rw [stride_append_atLink hhalt]
          dsimp only [FolderHalt.reached]
          rw [List.append_nil, List.append_assoc, ← List.append_assoc (Path.names target), ih hnext]

theorem folderSearched_of_frame?_le
    (hframe : ∀ p n, t.frame? p = some n → t'.frame? p = some n)
    (h : t.folderWalk links here names = .ok dir) :
    t'.folderSearched links here names = t.folderSearched links here names := by
  induction links generalizing here names with
  | zero => cases h
  | succ links ih =>
      obtain ⟨halt, hhalt, hnext⟩ := bind_eq_ok_iff.mp h
      have hstrides := folderStride_eq_ok_iff.mp hhalt
      rw [folderSearched, folderSearched, asked_of_frame?_le hstrides hframe, hhalt,
        folderStride_eq_ok_iff.mpr (hstrides.of_frame?_le hframe)]
      cases halt with
      | inFolder p => rfl
      | atLink folder target rest =>
          dsimp only
          rw [ih hnext]

/-- In a sound tree names are looked up in folders. -/
theorem Sound.hasFolder_of_mem_folderSearched (hsound : t.Sound) (hhere : t.HasFolder here)
    (h : t.folderWalk links here names = .ok dir) {q : Place}
    (hq : q ∈ t.folderSearched links here names) : t.HasFolder q := by
  induction links generalizing here names with
  | zero => cases h
  | succ links ih =>
      obtain ⟨halt, hhalt, hnext⟩ := bind_eq_ok_iff.mp h
      have hstrides := folderStride_eq_ok_iff.mp hhalt
      rw [folderSearched, hhalt, List.mem_append] at hq
      obtain hq | hq := hq
      · exact hsound.hasFolder_of_mem_asked hstrides hhere hq
      · cases halt with
        | inFolder p => cases hq
        | atLink folder target rest =>
            refine ih ?_ hnext hq
            split_ifs
            · exact t.hasFolder_root
            · exact hstrides.hasFolder hsound hhere

end TokenAuthority.FileTree

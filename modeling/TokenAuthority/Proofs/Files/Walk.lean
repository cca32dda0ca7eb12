import TokenAuthority.Proofs.Except
import TokenAuthority.Proofs.Files.Tree

/-!
# Walks to a folder

A walk goes through folders and links, and only its end may be a file. So a walk to a file
in a folder is a walk to the folder and one step more, and where the folder is depends on
the frame of the tree only, not on its files.
-/

namespace TokenAuthority.FileTree

/-! ### The walk to a folder -/

/-- A name that leads to something in a folder. -/
def IsProper (name : String) : Prop :=
  name ≠ "." ∧ name ≠ ".." ∧ Utf8.size name ≤ longestName

/-- Where a walk to a folder comes to a halt: in a folder, or at a link with names behind it. -/
inductive FolderHalt where
  | inFolder (p : Place)
  | atLink (folder : Place) (target : String) (rest : List String)

/-- Walks from a folder to a folder, up to the first link. -/
def folderStride (t : FileTree) : Place → List String → Except FileError FolderHalt
  | here, [] => .ok (.inFolder here)
  | here, name :: rest =>
    if name = "." then t.folderStride here rest
    else if name = ".." then t.folderStride here.dropLast rest
    else if longestName < Utf8.size name then .error .nameTooLong
    else
      match t.node? (here ++ [name]) with
      | none => .error .notFound
      | some (.folder _) => t.folderStride (here ++ [name]) rest
      | some (.link target) => .ok (.atLink here target rest)
      | some _ => .error .notFolder

/-- Walks from a folder to a folder through fewer links than the first number. -/
def folderWalk (t : FileTree) : Nat → Place → List String → Except FileError Place
  | 0, _, _ => .error .tooManyLinks
  | links + 1, here, names => do
    match ← t.folderStride here names with
    | .inFolder p => return p
    | .atLink folder target rest =>
      t.folderWalk links (if Path.isAbsolute target then [] else folder) (Path.names target ++ rest)

/-- What stands under a name in a folder. -/
def under (t : FileTree) (folder : Place) (name : String) : Spot :=
  match t.node? (folder ++ [name]) with
  | none => .free (folder ++ [name])
  | some n => .taken (folder ++ [name]) n

@[simp] theorem place_under (t : FileTree) (folder : Place) (name : String) :
    (t.under folder name).place = folder ++ [name] := by
  unfold under
  split <;> rfl

/-- A stride to a name in a folder is one to the folder first. -/
theorem stride_append (t : FileTree) (follow : Bool) (last : String) (here : Place)
    (names : List String) :
    t.stride follow here (names ++ [last]) =
      (t.folderStride here names) >>= fun halt =>
        match halt with
        | .inFolder p => t.stride follow p [last]
        | .atLink folder target rest => .ok (.atLink folder target (rest ++ [last])) := by
  induction names generalizing here with
  | nil => rfl
  | cons name rest ih =>
      have hrest : rest ++ [last] ≠ [] := by simp
      rw [List.cons_append, stride, folderStride]
      by_cases hdot : name = "."
      · rw [if_pos hdot, if_pos hdot]
        exact ih here
      by_cases hdots : name = ".."
      · rw [if_neg hdot, if_neg hdot, if_pos hdots, if_pos hdots]
        exact ih here.dropLast
      by_cases hlong : longestName < Utf8.size name
      · rw [if_neg hdot, if_neg hdot, if_neg hdots, if_neg hdots, if_pos hlong, if_pos hlong]
        rfl
      rw [if_neg hdot, if_neg hdot, if_neg hdots, if_neg hdots, if_neg hlong, if_neg hlong]
      dsimp only
      cases t.node? (here ++ [name]) with
      | none =>
          dsimp only
          rw [if_neg hrest]
          rfl
      | some n =>
          cases n with
          | folder mode => exact ih (here ++ [name])
          | file mode content =>
              dsimp only
              rw [if_neg hrest]
              rfl
          | link target =>
              dsimp only
              rw [if_neg fun h => hrest h.1]
              rfl

/-- The last step of a walk, which ends at a link only if it is not to be followed. -/
theorem stride_last (t : FileTree) {follow : Bool} {p : Place} {last : String}
    (hlast : IsProper last)
    (hlink : follow → ∀ target, t.node? (p ++ [last]) ≠ some (.link target)) :
    t.stride follow p [last] = .ok (match t.node? (p ++ [last]) with
      | none => .vacant (p ++ [last])
      | some n => .reached (p ++ [last]) n) := by
  obtain ⟨hdot, hdots, hsize⟩ := hlast
  rw [stride, if_neg hdot, if_neg hdots, if_neg (Nat.not_lt.mpr hsize)]
  dsimp only
  cases hnode : t.node? (p ++ [last]) with
  | none => rfl
  | some n =>
      cases n with
      | folder mode => rw [stride, hnode]; rfl
      | file mode content => rfl
      | link target =>
          cases follow with
          | false => rfl
          | true => exact absurd hnode (hlink rfl target)

/-- A walk to a name in a folder is one to the folder first. -/
theorem walk_append {t : FileTree} {follow : Bool} {last : String} (hlast : IsProper last)
    {links : Nat} {here : Place} {names : List String}
    (hlink : follow → ∀ p target, t.folderWalk links here names = .ok p →
      t.node? (p ++ [last]) ≠ some (.link target)) :
    t.walk follow links here (names ++ [last]) =
      (t.folderWalk links here names).map fun p => t.under p last := by
  induction links generalizing here names with
  | zero => rfl
  | succ links ih =>
      rw [walk, folderWalk, stride_append]
      rw [folderWalk] at hlink
      cases hstride : t.folderStride here names with
      | error e => rfl
      | ok halt =>
          rw [hstride] at hlink
          cases halt with
          | inFolder p =>
              have hstep := stride_last t hlast fun hfollow target => hlink hfollow p target rfl
              simp only [bind, Except.bind, hstep]
              simp only [Except.map, pure, Except.pure, under]
              cases t.node? (p ++ [last]) with
              | none => rfl
              | some n => rfl
          | atLink folder target rest =>
              simp only [bind, Except.bind]
              rw [← List.append_assoc]
              exact ih hlink

/-! ### Folders and the frame -/

/-- How a stride through folders comes to its halt. -/
inductive Strides (t : FileTree) : Place → List String → FolderHalt → Prop
  | nil (here : Place) : Strides t here [] (.inFolder here)
  | dot {here : Place} {rest : List String} {halt : FolderHalt}
    (behind : Strides t here rest halt) : Strides t here ("." :: rest) halt
  | dots {here : Place} {rest : List String} {halt : FolderHalt}
    (behind : Strides t here.dropLast rest halt) : Strides t here (".." :: rest) halt
  | folder {here : Place} {name : String} {rest : List String} {halt : FolderHalt} {mode : Nat}
    (proper : IsProper name) (node : t.node? (here ++ [name]) = some (.folder mode))
    (behind : Strides t (here ++ [name]) rest halt) : Strides t here (name :: rest) halt
  | link {here : Place} {name : String} {rest : List String} {target : String}
    (proper : IsProper name) (node : t.node? (here ++ [name]) = some (.link target)) :
    Strides t here (name :: rest) (.atLink here target rest)

theorem folderStride_of_proper (t : FileTree) {name : String} (h : IsProper name) (here : Place)
    (rest : List String) :
    t.folderStride here (name :: rest) =
      match t.node? (here ++ [name]) with
      | none => .error .notFound
      | some (.folder _) => t.folderStride (here ++ [name]) rest
      | some (.link target) => .ok (.atLink here target rest)
      | some _ => .error .notFolder := by
  rw [folderStride, if_neg h.1, if_neg h.2.1, if_neg (Nat.not_lt.mpr h.2.2)]

section

variable {t t' : FileTree} {here : Place} {names : List String} {halt : FolderHalt}

theorem folderStride_eq_ok_iff :
    t.folderStride here names = .ok halt ↔ t.Strides here names halt := by
  constructor
  · intro h
    induction names generalizing here with
    | nil =>
        cases h
        exact .nil here
    | cons name rest ih =>
        by_cases hdot : name = "."
        · subst hdot
          exact .dot (ih h)
        by_cases hdots : name = ".."
        · subst hdots
          exact .dots (ih h)
        by_cases hlong : longestName < Utf8.size name
        · rw [folderStride, if_neg hdot, if_neg hdots, if_pos hlong] at h
          cases h
        have hproper : IsProper name := ⟨hdot, hdots, Nat.not_lt.mp hlong⟩
        rw [folderStride_of_proper t hproper] at h
        cases hnode : t.node? (here ++ [name]) with
        | none =>
            rw [hnode] at h
            cases h
        | some n =>
            rw [hnode] at h
            cases n with
            | folder mode => exact .folder hproper hnode (ih h)
            | file mode content => cases h
            | link target =>
                cases h
                exact .link hproper hnode
  · intro h
    induction h with
    | nil here => rfl
    | dot _ ih => exact ih
    | dots _ ih => exact ih
    | folder proper node _ ih =>
        rw [folderStride_of_proper t proper, node]
        exact ih
    | link proper node => rw [folderStride_of_proper t proper, node]

/-- A way down through folders leads straight to the last of them. -/
theorem strides_of_hasFolder (h : ∀ name ∈ names, IsProper name)
    (hfolders : ∀ p, p <+: here ++ names → t.HasFolder p) :
    t.Strides here names (.inFolder (here ++ names)) := by
  induction names generalizing here with
  | nil =>
      rw [List.append_nil]
      exact .nil here
  | cons name rest ih =>
      obtain ⟨mode, hmode⟩ := hfolders (here ++ [name]) ⟨rest, by simp⟩
      have hrest := @ih (here ++ [name]) (fun name' hname' => h name' (by simp [hname']))
        (by simpa using hfolders)
      rw [List.append_assoc] at hrest
      exact .folder (h name (by simp)) hmode hrest

/-- The folder where a stride through folders comes to its halt. -/
def FolderHalt.place : FolderHalt → Place
  | inFolder p => p
  | atLink folder _ _ => folder

theorem Strides.hasFolder (h : t.Strides here names halt) (hsound : t.Sound)
    (hhere : t.HasFolder here) : t.HasFolder halt.place := by
  induction h with
  | nil here => exact hhere
  | dot _ ih => exact ih hhere
  | dots _ ih => exact ih (hsound.hasFolder_dropLast hhere)
  | folder _ node _ ih => exact ih ⟨_, node⟩
  | link _ _ => exact hhere

/-- A way through the folders and links of one tree is a way in every tree that has them. -/
theorem Strides.of_frame?_le (h : t.Strides here names halt)
    (hframe : ∀ p n, t.frame? p = some n → t'.frame? p = some n) :
    t'.Strides here names halt := by
  induction h with
  | nil here => exact .nil here
  | dot _ ih => exact .dot ih
  | dots _ ih => exact .dots ih
  | folder proper node _ ih => exact .folder proper (node?_of_frame?_le hframe node (by simp)) ih
  | link proper node => exact .link proper (node?_of_frame?_le hframe node (by simp))

/-- In a sound tree a walk from a folder to a folder ends in one. -/
theorem Sound.hasFolder_folderWalk (h : t.Sound) {links : Nat} (hhere : t.HasFolder here)
    {p : Place}
    (hp : t.folderWalk links here names = .ok p) : t.HasFolder p := by
  induction links generalizing here names with
  | zero => cases hp
  | succ links ih =>
      rw [folderWalk] at hp
      obtain ⟨halt, hhalt, hnext⟩ := bind_eq_ok_iff.mp hp
      have hfolder := (folderStride_eq_ok_iff.mp hhalt).hasFolder h hhere
      cases halt with
      | inFolder q =>
          cases hnext
          exact hfolder
      | atLink folder target rest =>
          refine ih ?_ hnext
          split_ifs
          · exact t.hasFolder_root
          · exact hfolder

/-- A walk that ends in a folder does so in every tree with the same folders and links. -/
theorem folderWalk_of_frame?_le (hframe : ∀ p n, t.frame? p = some n → t'.frame? p = some n)
    {links : Nat} {p : Place} (hp : t.folderWalk links here names = .ok p) :
    t'.folderWalk links here names = .ok p := by
  induction links generalizing here names with
  | zero => cases hp
  | succ links ih =>
      rw [folderWalk] at hp ⊢
      obtain ⟨halt, hhalt, hnext⟩ := bind_eq_ok_iff.mp hp
      have hstrides := (folderStride_eq_ok_iff.mp hhalt).of_frame?_le hframe
      refine bind_eq_ok_iff.mpr ⟨halt, folderStride_eq_ok_iff.mpr hstrides, ?_⟩
      cases halt with
      | inFolder q => exact hnext
      | atLink folder target rest => exact ih hnext

theorem folderWalk_of_frame?_eq (hframe : t'.frame? = t.frame?) {links : Nat} {p : Place}
    (hp : t.folderWalk links here names = .ok p) : t'.folderWalk links here names = .ok p := by
  refine folderWalk_of_frame?_le (fun q n hq => ?_) hp
  rw [hframe]
  exact hq

end

end TokenAuthority.FileTree

import TokenAuthority.Files.Disk
import TokenAuthority.Proofs.Files.Change

/-!
# Disks and their trees

A change of a disk is a change of its tree, and of the rights at its places. A name that comes
or goes is one place of the tree; a content that changes does so under every name of the file.
-/

namespace TokenAuthority

/-! ### Rights -/

@[simp] theorem Inode.rights_fill (n : Inode) (content : Bytes) :
    (n.fill content).rights = n.rights := by
  obtain ⟨owner, group, node⟩ := n
  cases node <;> rfl

theorem Inode.bare_restrict (n : Inode) (mode : Nat) :
    FileTree.bare (n.restrict mode).node = FileTree.bare n.node := by
  obtain ⟨owner, group, node⟩ := n
  cases node <;> rfl

namespace Disk

variable {d : Disk} {p q : Place} {i : Nat} {n : Node}

/-! ### Numbers -/

theorem lookup_map_snd {α β γ : Type} [BEq α] (l : List (α × β)) (f : β → γ) (a : α) :
    (l.map fun e => (e.1, f e.2)).lookup a = (l.lookup a).map f := by
  induction l with
  | nil => rfl
  | cons e l ih =>
      rw [List.map_cons, List.lookup_cons, List.lookup_cons, ih]
      cases a == e.1 <;> rfl

/-- What stands at a place is what has its number. -/
theorem node?_tree (d : Disk) (hp : p ≠ []) :
    d.tree.node? p = (d.number? p).map fun i => (d.inode i).node := by
  rw [FileTree.node?, number?, if_neg hp, if_neg hp]
  exact lookup_map_snd d.names (fun i => (d.inode i).node) p

theorem ne_nil_of_number? (hi : d.number? p = some i) : p ≠ [] := by
  rintro rfl
  cases hi

theorem node?_of_number? (hi : d.number? p = some i) : d.tree.node? p = some (d.inode i).node := by
  rw [node?_tree d (ne_nil_of_number? hi), hi]
  rfl

theorem number?_eq_none_iff (hp : p ≠ []) : d.number? p = none ↔ d.tree.node? p = none := by
  rw [node?_tree d hp, Option.map_eq_none_iff]

theorem exists_number? (hp : p ≠ []) (hn : d.tree.node? p = some n) :
    ∃ i, d.number? p = some i ∧ (d.inode i).node = n := by
  rw [node?_tree d hp] at hn
  exact Option.map_eq_some_iff.mp hn

theorem rights?_of_number? (hi : d.number? p = some i) :
    d.rights? p = some (d.inode i).rights := by
  rw [rights?, if_neg (ne_nil_of_number? hi), hi]
  rfl

theorem rights?_eq_none_iff (hp : p ≠ []) : d.rights? p = none ↔ d.number? p = none := by
  rw [rights?, if_neg hp, Option.map_eq_none_iff]

theorem rights?_congr {d' : Disk} (hroot : d'.root = d.root) (hnumber : d'.number? p = d.number? p)
    (hrights : ∀ i ∈ d.number? p, (d'.inode i).rights = (d.inode i).rights) :
    d'.rights? p = d.rights? p := by
  rw [rights?, rights?, hroot, hnumber]
  cases hi : d.number? p with
  | none => rfl
  | some i => rw [Option.map_some, Option.map_some, hrights i hi]

/-! ### Names of one file -/

theorem SameFile.refl (d : Disk) (p : Place) : d.SameFile p p := Or.inl rfl

theorem sameFile_iff (hi : d.number? p = some i) : d.SameFile p q ↔ d.number? q = some i := by
  constructor
  · rintro (rfl | ⟨-, heq⟩)
    · exact hi
    · exact heq.symm.trans hi
  · intro hq
    exact Or.inr ⟨by simp [hi], hi.trans hq.symm⟩

theorem sameFile_iff_eq (hp : d.number? p = none) : d.SameFile p q ↔ q = p := by
  constructor
  · rintro (rfl | ⟨hne, -⟩)
    · rfl
    · exact absurd hp hne
  · rintro rfl
    exact .refl d q

theorem SameFile.congr_left {r : Place} (h : d.SameFile p q) : d.SameFile p r ↔ d.SameFile q r := by
  obtain rfl | ⟨hp, heq⟩ := h
  · exact Iff.rfl
  · obtain ⟨i, hi⟩ := Option.ne_none_iff_exists'.mp hp
    rw [sameFile_iff hi, sameFile_iff (heq ▸ hi)]

/-- The names of one file have one content, and one owner. -/
theorem SameFile.node?_eq (h : d.SameFile p q) : d.tree.node? q = d.tree.node? p := by
  obtain rfl | ⟨hp, heq⟩ := h
  · rfl
  · obtain ⟨i, hi⟩ := Option.ne_none_iff_exists'.mp hp
    rw [node?_of_number? hi, node?_of_number? (heq ▸ hi)]

theorem SameFile.rights?_eq (h : d.SameFile p q) : d.rights? q = d.rights? p := by
  obtain rfl | ⟨hp, heq⟩ := h
  · rfl
  · obtain ⟨i, hi⟩ := Option.ne_none_iff_exists'.mp hp
    rw [rights?_of_number? hi, rights?_of_number? (heq ▸ hi)]

/-! ### Names that come and go -/

theorem number?_enter (d : Disk) (hp : p ≠ []) (i : Nat) (q : Place) :
    (d.enter p i).number? q = if q = p then some i else d.number? q := by
  unfold number? enter
  by_cases hq : q = p
  · subst hq
    simp [hp]
  · have hne : (q == p) = false := by simpa using hq
    have hkept : (q != p) = true := by simpa using hq
    rw [if_neg hq, List.lookup_cons, hne, FileTree.lookup_filter (· != p), if_pos hkept]

theorem number?_erase (d : Disk) (p q : Place) :
    (d.erase p).number? q = if p <+: q then none else d.number? q := by
  unfold number? erase
  by_cases hq : q = []
  · subst hq
    rw [if_pos rfl, if_pos rfl, ite_self]
  · rw [if_neg hq, if_neg hq, FileTree.lookup_filter fun r => !p.isPrefixOf r]
    by_cases hbelow : p <+: q
    · rw [if_pos hbelow, List.isPrefixOf_iff_prefix.mpr hbelow]
      rfl
    · rw [if_neg hbelow, Bool.eq_false_iff.mpr fun h => hbelow (List.isPrefixOf_iff_prefix.mp h)]
      rfl

theorem tree_enter (d : Disk) (p : Place) (i : Nat) :
    (d.enter p i).tree = d.tree.put p (d.inode i).node := by
  rw [tree, tree, enter, FileTree.put, List.map_cons, List.filter_map]
  rfl

theorem tree_erase (d : Disk) (p : Place) : (d.erase p).tree = d.tree.erase p := by
  rw [tree, tree, erase, FileTree.erase, List.filter_map]
  rfl

/-! ### What is new -/

theorem lt_fresh {e : Place × Nat} (he : e ∈ d.names) : e.2 < d.fresh := by
  unfold fresh
  generalize d.names = names at he ⊢
  induction names with
  | nil => cases he
  | cons first rest ih =>
      rw [List.foldr_cons]
      obtain rfl | hrest := List.mem_cons.mp he
      · omega
      · exact lt_of_lt_of_le (ih hrest) (le_max_right _ _)

theorem mem_names_of_lookup {α β : Type} [BEq α] [LawfulBEq α] {l : List (α × β)} {a : α} {b : β}
    (h : l.lookup a = some b) : (a, b) ∈ l := by
  induction l with
  | nil => cases h
  | cons e l ih =>
      rw [List.lookup_cons] at h
      by_cases ha : a = e.1
      · subst ha
        rw [beq_self_eq_true] at h
        cases h
        exact List.mem_cons_self
      · rw [beq_eq_false_iff_ne.mpr ha] at h
        exact List.mem_cons_of_mem _ (ih h)

theorem number?_ne_fresh (d : Disk) (q : Place) : d.number? q ≠ some d.fresh := by
  intro hq
  rw [number?, if_neg (ne_nil_of_number? hq)] at hq
  exact absurd (lt_fresh (mem_names_of_lookup hq)) (Nat.lt_irrefl _)

theorem number?_make (d : Disk) (hp : p ≠ []) (n : Inode) (q : Place) :
    (d.make p n).number? q = if q = p then some d.fresh else d.number? q :=
  number?_enter (d.set d.fresh n) hp d.fresh q

theorem tree_make (d : Disk) (p : Place) (n : Inode) : (d.make p n).tree = d.tree.put p n.node := by
  have hset : (d.set d.fresh n).tree = d.tree := by
    rw [tree, tree]
    congr 1
    refine List.map_congr_left fun e he => ?_
    have hne : e.2 ≠ d.fresh := (lt_fresh he).ne
    rw [set]
    dsimp only
    rw [if_neg hne]
  rw [make, tree_enter, hset, set]
  dsimp only
  rw [if_pos rfl]

theorem rights?_make (d : Disk) (hp : p ≠ []) (n : Inode) (q : Place) :
    (d.make p n).rights? q = if q = p then some n.rights else d.rights? q := by
  split_ifs with hq
  · have hnumber := number?_make d hp n q
    rw [if_pos hq] at hnumber
    rw [rights?_of_number? hnumber]
    exact congrArg (fun n : Inode => some n.rights) (if_pos rfl)
  · have hnumber := number?_make d hp n q
    rw [if_neg hq] at hnumber
    refine rights?_congr rfl hnumber fun i hi => ?_
    have hne : i ≠ d.fresh := by
      rintro rfl
      exact number?_ne_fresh d q hi
    exact congrArg Inode.rights (if_neg hne)

/-! ### Contents -/

theorem node?_set (d : Disk) (i : Nat) (n : Inode) (q : Place) :
    (d.set i n).tree.node? q = if d.number? q = some i then some n.node else d.tree.node? q := by
  obtain rfl | hq := eq_or_ne q []
  · rfl
  · rw [node?_tree _ hq, node?_tree d hq]
    change (d.number? q).map _ = _
    cases hj : d.number? q with
    | none => rfl
    | some j =>
        rw [set, Option.map_some]
        dsimp only
        by_cases hji : j = i
        · rw [if_pos hji, if_pos (congrArg some hji)]
        · rw [if_neg hji, if_neg fun h => hji (Option.some.inj h)]
          rfl

/-- The permission bits of a file that is given a content: those it has, or those of a new
file. -/
def writtenMode (d : Disk) (p : Place) : Nat :=
  match d.tree.node? p with
  | some n => n.mode
  | none => FileTree.privateMode

variable {folder : Place} {name : String}

/-- A content is written under every name of the file. -/
theorem node?_fill (h : d.tree.Free folder name) (u : User) (content : Bytes) (q : Place) :
    (d.fill u (folder ++ [name]) content).tree.node? q =
      if d.SameFile (folder ++ [name]) q then
        some (.file (d.writtenMode (folder ++ [name])) content)
      else d.tree.node? q := by
  rw [fill]
  cases hi : d.number? (folder ++ [name]) with
  | none =>
      simp only [sameFile_iff_eq hi]
      rw [tree_make, FileTree.node?_put _ FileTree.place_ne_nil, writtenMode,
        (number?_eq_none_iff FileTree.place_ne_nil).mp hi]
  | some i =>
      have hnode := node?_of_number? hi
      simp only [sameFile_iff hi]
      rw [node?_set, writtenMode, hnode]
      obtain hnone | ⟨mode, content', hfile⟩ := FileTree.frame?_eq_none_iff.mp h.plain
      · rw [hnode] at hnone
        cases hnone
      · rw [hnode] at hfile
        rw [Inode.fill, Option.some.inj hfile]
        rfl

theorem number?_fill_of_ne (d : Disk) (hp : p ≠ []) (u : User) (content : Bytes) (hq : q ≠ p) :
    (d.fill u p content).number? q = d.number? q := by
  rw [fill]
  cases d.number? p with
  | none => exact (number?_make d hp _ q).trans (if_neg hq)
  | some i => rfl

theorem rights?_fill_of_ne (d : Disk) (hp : p ≠ []) (u : User) (content : Bytes) (hq : q ≠ p) :
    (d.fill u p content).rights? q = d.rights? q := by
  refine rights?_congr ?_ (number?_fill_of_ne d hp u content hq) fun j hj => ?_
  · rw [fill]
    cases d.number? p <;> rfl
  · rw [fill]
    cases hi : d.number? p with
    | none =>
        refine congrArg Inode.rights (if_neg ?_)
        rintro rfl
        exact number?_ne_fresh d q hj
    | some i =>
        change (if j = i then (d.inode i).fill content else d.inode j).rights = _
        split_ifs with hji
        · rw [Inode.rights_fill, hji]
        · rfl

/-- What is written is the user's own, unless it was there before. -/
theorem rights?_fill_self (d : Disk) (hp : p ≠ []) (u : User) (content : Bytes) :
    (d.fill u p content).rights? p =
      some ((d.rights? p).getD ⟨u.id, u.group, FileTree.privateMode⟩) := by
  rw [fill]
  cases hi : d.number? p with
  | none =>
      rw [rights?_make d hp, if_pos rfl, (rights?_eq_none_iff hp).mpr hi]
      rfl
  | some i =>
      have hset : (d.set i ((d.inode i).fill content)).number? p = some i := hi
      rw [rights?_of_number? hset, rights?_of_number? hi]
      refine congrArg some ?_
      change (if i = i then (d.inode i).fill content else d.inode i).rights = _
      rw [if_pos rfl, Inode.rights_fill]
      rfl

theorem sameFile_fill (d : Disk) (hp : p ≠ []) (u : User) (content : Bytes) (q r : Place) :
    (d.fill u p content).SameFile q r ↔ d.SameFile q r := by
  rw [fill]
  cases hi : d.number? p with
  | some i => exact Iff.rfl
  | none =>
      simp only [SameFile, number?_make d hp]
      by_cases hq : q = p
      · subst hq
        by_cases hr : r = q
        · simp [hr]
        · rw [if_pos rfl, if_neg hr, hi]
          have hne := number?_ne_fresh d r
          simp only [ne_eq, not_true_eq_false, false_and, or_false]
          refine ⟨?_, Or.inl⟩
          rintro (heq | ⟨-, heq⟩)
          · exact heq
          · exact absurd heq.symm hne
      · by_cases hr : r = p
        · subst hr
          rw [if_neg hq, if_pos rfl, hi]
          have hne := number?_ne_fresh d q
          simp [hq, hne]
        · rw [if_neg hq, if_neg hr]

/-! ### Moving -/

theorem tree_move (d : Disk) (hp : p ≠ []) (hn : d.tree.node? p = some n) (q : Place) :
    (d.move p q).tree = (d.tree.erase p).put q n := by
  obtain ⟨i, hi, rfl⟩ := exists_number? hp hn
  rw [move, hi]
  dsimp only
  rw [tree_enter, tree_erase]
  rfl

theorem number?_move (d : Disk) (hq : q ≠ []) (hi : d.number? p = some i) (r : Place) :
    (d.move p q).number? r =
      if r = q then some i else if p <+: r then none else d.number? r := by
  rw [move, hi]
  dsimp only
  rw [number?_enter _ hq, number?_erase]

theorem rights?_move_of_ne (d : Disk) (hq : q ≠ []) {r : Place} (hr : r ≠ q) (hbelow : ¬p <+: r) :
    (d.move p q).rights? r = d.rights? r := by
  cases hi : d.number? p with
  | none =>
      rw [move, hi]
  | some i =>
      have hnumber := number?_move d hq hi r
      rw [if_neg hr, if_neg hbelow] at hnumber
      refine rights?_congr ?_ hnumber fun j _ => ?_
      · rw [move, hi]
        rfl
      · rw [move, hi]
        rfl

theorem rights?_move_self (d : Disk) (hq : q ≠ []) (hi : d.number? p = some i) :
    (d.move p q).rights? q = d.rights? p := by
  have hnumber := number?_move d hq hi q
  rw [if_pos rfl] at hnumber
  rw [rights?_of_number? hnumber, rights?_of_number? hi, move, hi]
  rfl

/-! ### Permission bits -/

theorem bare_restrict (d : Disk) (p : Place) (mode : Nat) (q : Place) :
    ((d.restrict p mode).tree.node? q).map FileTree.bare = (d.tree.node? q).map FileTree.bare := by
  rw [restrict]
  split_ifs with hp
  · rfl
  · cases hi : d.number? p with
    | none => rfl
    | some i =>
        dsimp only
        rw [node?_set]
        split_ifs with hq
        · rw [node?_of_number? hq, Option.map_some, Option.map_some, Inode.bare_restrict]
        · rfl

/-- Permission bits are given to a file under each of its names. -/
theorem node?_restrict (d : Disk) (hp : p ≠ []) {mode : Nat} {content : Bytes}
    (hn : d.tree.node? p = some (.file mode content)) (mode' : Nat) (q : Place) :
    (d.restrict p mode').tree.node? q =
      if d.SameFile p q then some (.file mode' content) else d.tree.node? q := by
  obtain ⟨i, hi, hfile⟩ := exists_number? hp hn
  simp only [sameFile_iff hi]
  rw [restrict, if_neg hp, hi]
  dsimp only
  rw [node?_set, Inode.restrict, hfile]

theorem rights?_restrict (d : Disk) (hp : p ≠ []) {mode : Nat} {content : Bytes}
    (hn : d.tree.node? p = some (.file mode content)) (mode' : Nat) (q : Place) :
    (d.restrict p mode').rights? q =
      if d.SameFile p q then (d.rights? p).map ({ · with mode := mode' }) else d.rights? q := by
  obtain ⟨i, hi, hfile⟩ := exists_number? hp hn
  have hrestrict : d.restrict p mode' = d.set i ((d.inode i).restrict mode') := by
    rw [restrict, if_neg hp, hi]
  rw [hrestrict]
  simp only [sameFile_iff hi]
  split_ifs with hq
  · have hset : (d.set i ((d.inode i).restrict mode')).number? q = some i := hq
    rw [rights?_of_number? hset, rights?_of_number? hi, set, Option.map_some]
    dsimp only
    rw [if_pos rfl, Inode.restrict, hfile]
    rfl
  · refine rights?_congr rfl rfl fun j hj => ?_
    have hne : j ≠ i := by
      rintro rfl
      exact hq hj
    exact congrArg Inode.rights (if_neg hne)

end Disk

end TokenAuthority

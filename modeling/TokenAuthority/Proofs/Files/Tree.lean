import TokenAuthority.Files.Tree
import Mathlib.Data.List.Induction

/-!
# Trees whose files change

What stands where after a change, the trees in which everything stands in a folder, and the
frame of a tree: its folders and links. A file can come and go, or get another content, and
the frame stays as it is.
-/

namespace TokenAuthority.FileTree

/-! ### Places after a change -/

theorem lookup_filter {α β : Type} [BEq α] [LawfulBEq α] (f : α → Bool) (l : List (α × β)) (a : α) :
    (l.filter fun e => f e.1).lookup a = if f a then l.lookup a else none := by
  induction l with
  | nil => simp
  | cons e l ih =>
      rw [List.filter_cons, List.lookup_cons]
      by_cases ha : a = e.1
      · subst ha
        by_cases hkept : f e.1
        · rw [if_pos hkept, if_pos hkept, List.lookup_cons, beq_self_eq_true]
        · rw [if_neg hkept, if_neg hkept, ih, if_neg hkept]
      · have hne : (a == e.1) = false := beq_eq_false_iff_ne.mpr ha
        rw [hne]
        by_cases hkept : f e.1
        · rw [if_pos hkept, List.lookup_cons, hne]
          exact ih
        · rw [if_neg hkept]
          exact ih

theorem node?_put (t : FileTree) {p : Place} (hp : p ≠ []) (n : Node) (q : Place) :
    (t.put p n).node? q = if q = p then some n else t.node? q := by
  unfold node? put
  by_cases hq : q = p
  · subst hq
    simp [hp]
  · have hne : (q == p) = false := by simpa using hq
    have hkept : (q != p) = true := by simpa using hq
    rw [if_neg hq, List.lookup_cons, hne, lookup_filter (· != p), if_pos hkept]

theorem node?_put_self (t : FileTree) {p : Place} (hp : p ≠ []) (n : Node) :
    (t.put p n).node? p = some n := by
  rw [node?_put t hp, if_pos rfl]

theorem node?_erase (t : FileTree) {p : Place} (hp : p ≠ []) (q : Place) :
    (t.erase p).node? q = if p <+: q then none else t.node? q := by
  unfold node? erase
  by_cases hq : q = []
  · subst hq
    rw [if_pos rfl, if_pos rfl, if_neg (by simpa using hp)]
  · rw [if_neg hq, if_neg hq, lookup_filter fun r => !p.isPrefixOf r]
    by_cases hbelow : p <+: q
    · rw [if_pos hbelow, List.isPrefixOf_iff_prefix.mpr hbelow]
      rfl
    · rw [if_neg hbelow, Bool.eq_false_iff.mpr fun h => hbelow (List.isPrefixOf_iff_prefix.mp h)]
      rfl

theorem node?_erase_self (t : FileTree) {p : Place} (hp : p ≠ []) :
    (t.erase p).node? p = none := by
  rw [node?_erase t hp, if_pos List.prefix_rfl]

theorem put_put (t : FileTree) (p : Place) (n n' : Node) : (t.put p n).put p n' = t.put p n' := by
  simp [put, List.filter_filter]

theorem erase_put (t : FileTree) (p : Place) (n : Node) : (t.put p n).erase p = t.erase p := by
  have hkept : ∀ e : Place × Node,
      ((!p.isPrefixOf e.1) && (e.1 != p)) = !p.isPrefixOf e.1 := by
    intro e
    by_cases he : e.1 = p
    · simp [he]
    · simp [he]
  simp [erase, put, List.filter_filter, hkept]

/-! ### Sound trees -/

/-- Whether a folder stands at a place. -/
def HasFolder (t : FileTree) (p : Place) : Prop :=
  ∃ mode, t.node? p = some (.folder mode)

/-- A tree in which everything stands in a folder. -/
def Sound (t : FileTree) : Prop :=
  ∀ p name n, t.node? (p ++ [name]) = some n → t.HasFolder p

theorem hasFolder_root (t : FileTree) : t.HasFolder [] :=
  ⟨folderMode, rfl⟩

/-- Above a folder there are only folders. -/
theorem Sound.hasFolder_of_prefix {t : FileTree} (h : t.Sound) {p q : Place} (hq : t.HasFolder q)
    (hp : p <+: q) : t.HasFolder p := by
  obtain ⟨below, rfl⟩ := hp
  induction below using List.reverseRecOn with
  | nil => simpa using hq
  | append_singleton below name ih =>
      obtain ⟨mode, hmode⟩ := hq
      rw [← List.append_assoc] at hmode
      exact ih (h _ _ _ hmode)

theorem Sound.hasFolder_dropLast {t : FileTree} (h : t.Sound) {p : Place} (hp : t.HasFolder p) :
    t.HasFolder p.dropLast :=
  h.hasFolder_of_prefix hp (List.dropLast_prefix p)

/-- Below a place without a folder there is nothing. -/
theorem Sound.eq_of_prefix {t : FileTree} (h : t.Sound) {p q : Place} (hp : ¬t.HasFolder p)
    (hbelow : p <+: q) {n : Node} (hq : t.node? q = some n) : q = p := by
  obtain ⟨below, rfl⟩ := hbelow
  induction below using List.reverseRecOn generalizing n with
  | nil => rw [List.append_nil]
  | append_singleton below name ih =>
      rw [← List.append_assoc] at hq
      obtain ⟨mode, hmode⟩ := h _ _ _ hq
      have heq := ih hmode
      rw [heq] at hmode
      exact absurd ⟨mode, hmode⟩ hp

theorem ne_nil_of_not_hasFolder {t : FileTree} {p : Place} (hp : ¬t.HasFolder p) : p ≠ [] := by
  rintro rfl
  exact hp t.hasFolder_root

theorem HasFolder.put {t : FileTree} {p q : Place} (hq : t.HasFolder q) (hp : ¬t.HasFolder p)
    (n : Node) : (t.put p n).HasFolder q := by
  obtain ⟨mode, hmode⟩ := hq
  refine ⟨mode, ?_⟩
  rw [node?_put t (ne_nil_of_not_hasFolder hp), if_neg, hmode]
  rintro rfl
  exact hp ⟨mode, hmode⟩

/-- In a sound tree there is nothing else to lose where there is no folder. -/
theorem Sound.node?_erase_of_ne {t : FileTree} (h : t.Sound) {p q : Place}
    (hp : ¬t.HasFolder p) (hq : q ≠ p) : (t.erase p).node? q = t.node? q := by
  rw [node?_erase t (ne_nil_of_not_hasFolder hp)]
  by_cases hbelow : p <+: q
  · rw [if_pos hbelow]
    cases hn : t.node? q with
    | none => rfl
    | some n => exact absurd (h.eq_of_prefix hp hbelow hn) hq
  · rw [if_neg hbelow]

theorem Sound.put {t : FileTree} (h : t.Sound) {folder : Place} {name : String}
    (hfolder : t.HasFolder folder) (hplain : ¬t.HasFolder (folder ++ [name])) (n : Node) :
    (t.put (folder ++ [name]) n).Sound := by
  intro q last n' hn'
  refine HasFolder.put ?_ hplain n
  rw [node?_put t (ne_nil_of_not_hasFolder hplain)] at hn'
  by_cases hq : q ++ [last] = folder ++ [name]
  · rw [(List.append_inj' hq rfl).1]
    exact hfolder
  · rw [if_neg hq] at hn'
    exact h q last n' hn'

theorem Sound.hasFolder_erase {t : FileTree} (h : t.Sound) {p q : Place} (hp : ¬t.HasFolder p)
    (hq : t.HasFolder q) : (t.erase p).HasFolder q := by
  obtain ⟨mode, hmode⟩ := hq
  refine ⟨mode, ?_⟩
  rw [h.node?_erase_of_ne hp, hmode]
  rintro rfl
  exact hp ⟨mode, hmode⟩

theorem Sound.erase {t : FileTree} (h : t.Sound) {p : Place} (hp : ¬t.HasFolder p) :
    (t.erase p).Sound := by
  intro q last n hn
  have hne : q ++ [last] ≠ p := by
    rintro rfl
    rw [node?_erase_self t (ne_nil_of_not_hasFolder hp)] at hn
    cases hn
  rw [h.node?_erase_of_ne hp hne] at hn
  exact h.hasFolder_erase hp (h q last n hn)

/-! ### The frame -/

/-- What stands at a place, if it is a folder or a link. -/
def frame? (t : FileTree) (p : Place) : Option Node :=
  match t.node? p with
  | some (.file _ _) => none
  | n? => n?

theorem frame?_of_node? {t t' : FileTree} {p : Place} (h : t'.node? p = t.node? p) :
    t'.frame? p = t.frame? p := by
  rw [frame?, frame?, h]

theorem frame?_eq_none_iff {t : FileTree} {p : Place} :
    t.frame? p = none ↔
      t.node? p = none ∨ ∃ mode content, t.node? p = some (.file mode content) := by
  unfold frame?
  cases t.node? p with
  | none => simp
  | some n => cases n <;> simp

theorem frame?_eq_some_iff {t : FileTree} {p : Place} {n : Node} :
    t.frame? p = some n ↔ t.node? p = some n ∧ ∀ mode content, n ≠ .file mode content := by
  unfold frame?
  cases t.node? p with
  | none => simp
  | some n' =>
      cases n' with
      | file mode content =>
          refine ⟨fun h => (nomatch h), ?_⟩
          rintro ⟨h, hfile⟩
          cases h
          exact absurd rfl (hfile mode content)
      | folder mode =>
          refine ⟨?_, fun h => h.1⟩
          rintro ⟨⟩
          exact ⟨rfl, by simp⟩
      | link target =>
          refine ⟨?_, fun h => h.1⟩
          rintro ⟨⟩
          exact ⟨rfl, by simp⟩

/-- What is no file stands in every tree that has the same folders and links. -/
theorem node?_of_frame?_le {t t' : FileTree}
    (hframe : ∀ p n, t.frame? p = some n → t'.frame? p = some n) {p : Place} {n : Node}
    (hn : t.node? p = some n) (hfile : ∀ mode content, n ≠ .file mode content) :
    t'.node? p = some n :=
  (frame?_eq_some_iff.mp (hframe p n (frame?_eq_some_iff.mpr ⟨hn, hfile⟩))).1

theorem node?_of_frame?_eq {t t' : FileTree} (hframe : t'.frame? = t.frame?) {p : Place} {n : Node}
    (hn : t.node? p = some n) (hfile : ∀ mode content, n ≠ .file mode content) :
    t'.node? p = some n := by
  refine node?_of_frame?_le (fun q n' hq => ?_) hn hfile
  rw [hframe]
  exact hq

theorem hasFolder_iff_frame? {t : FileTree} {p : Place} :
    t.HasFolder p ↔ ∃ mode, t.frame? p = some (.folder mode) := by
  unfold HasFolder frame?
  cases t.node? p with
  | none => simp
  | some n => cases n <;> simp

theorem hasFolder_of_frame?_eq {t t' : FileTree} (hframe : t'.frame? = t.frame?) {p : Place}
    (h : t.HasFolder p) : t'.HasFolder p := by
  rw [hasFolder_iff_frame?] at h ⊢
  rw [hframe]
  exact h

/-- A place in a folder where there is neither a folder nor a link. -/
structure Free (t : FileTree) (folder : Place) (name : String) : Prop where
  inFolder : t.HasFolder folder
  plain : t.frame? (folder ++ [name]) = none

section

variable {t : FileTree} {folder : Place} {name : String}

theorem place_ne_nil : folder ++ [name] ≠ [] := by
  simp

theorem Free.not_hasFolder (h : t.Free folder name) : ¬t.HasFolder (folder ++ [name]) := by
  rw [hasFolder_iff_frame?, h.plain]
  rintro ⟨mode, hmode⟩
  cases hmode

/-- What stands there, if anything does, is a file. -/
theorem Free.node?_ne (h : t.Free folder name) {n : Node}
    (hfile : ∀ mode content, n ≠ .file mode content) : t.node? (folder ++ [name]) ≠ some n := by
  intro hn
  have hframe := frame?_eq_some_iff.mpr ⟨hn, hfile⟩
  rw [h.plain] at hframe
  cases hframe

theorem Free.of_frame?_eq (h : t.Free folder name) {t' : FileTree} (hframe : t'.frame? = t.frame?) :
    t'.Free folder name := by
  refine ⟨hasFolder_of_frame?_eq hframe h.inFolder, ?_⟩
  rw [hframe]
  exact h.plain

/-! ### Files that come and go -/

theorem Free.frame?_put (h : t.Free folder name) (mode : Nat) (content : Bytes) :
    (t.put (folder ++ [name]) (.file mode content)).frame? = t.frame? := by
  funext q
  by_cases hq : q = folder ++ [name]
  · rw [hq, h.plain, frame?, node?_put_self t place_ne_nil]
  · apply frame?_of_node?
    rw [node?_put t place_ne_nil, if_neg hq]

theorem Free.sound_put (h : t.Free folder name) (hsound : t.Sound) (mode : Nat) (content : Bytes) :
    (t.put (folder ++ [name]) (.file mode content)).Sound :=
  hsound.put h.inFolder h.not_hasFolder _

theorem Free.node?_erase_of_ne (h : t.Free folder name) (hsound : t.Sound) {q : Place}
    (hq : q ≠ folder ++ [name]) : (t.erase (folder ++ [name])).node? q = t.node? q :=
  hsound.node?_erase_of_ne h.not_hasFolder hq

theorem Free.frame?_erase (h : t.Free folder name) (hsound : t.Sound) :
    (t.erase (folder ++ [name])).frame? = t.frame? := by
  funext q
  by_cases hq : q = folder ++ [name]
  · rw [hq, h.plain, frame?, node?_erase_self t place_ne_nil]
  · exact frame?_of_node? (h.node?_erase_of_ne hsound hq)

theorem Free.sound_erase (h : t.Free folder name) (hsound : t.Sound) :
    (t.erase (folder ++ [name])).Sound :=
  hsound.erase h.not_hasFolder

end

end TokenAuthority.FileTree

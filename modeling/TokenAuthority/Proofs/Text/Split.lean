import TokenAuthority.Text.Blank
import Mathlib.Data.List.TakeWhile

/-!
# Splitting a text

The parts between separators hold none themselves, and they are the only such parts that
make up the text.
-/

namespace TokenAuthority.Text

variable {sep : Char}

/-! ### At the first separator -/

theorem forall_bne_of_not_mem {cs : List Char} (h : sep ∉ cs) : ∀ c ∈ cs, (c != sep) = true := by
  intro c hc
  rw [bne_iff_ne]
  rintro rfl
  exact h hc

theorem splitOnce_of_not_mem {cs : List Char} (h : sep ∉ cs) :
    splitOnce sep cs = (cs, none) := by
  have hall := forall_bne_of_not_mem h
  rw [splitOnce, List.takeWhile_eq_self_iff.mpr hall, List.dropWhile_eq_nil_iff.mpr hall,
    List.tail?_nil]

theorem splitOnce_append_cons {cs : List Char} (h : sep ∉ cs) (ds : List Char) :
    splitOnce sep (cs ++ sep :: ds) = (cs, some ds) := by
  have hall := forall_bne_of_not_mem h
  rw [splitOnce, List.takeWhile_append_of_pos hall, List.dropWhile_append_of_pos hall]
  simp

/-! ### At every separator -/

theorem split_eq_splitOn (sep : Char) (cs : List Char) : split sep cs = cs.splitOn sep := by
  induction cs with
  | nil => rfl
  | cons c cs ih =>
      obtain ⟨part, parts, hp⟩ := List.exists_cons_of_ne_nil (List.splitOn_ne_nil sep cs)
      rw [split_cons, List.splitOn_cons_eq_if_modifyHead, ih, hp]
      simp

theorem split_append_sep (sep : Char) (cs ds : List Char) :
    split sep (cs ++ sep :: ds) = split sep cs ++ split sep ds := by
  rw [split_eq_splitOn, split_eq_splitOn, split_eq_splitOn]
  exact List.splitOn_append_cons_self ..

theorem split_append_cons {cs : List Char} (h : sep ∉ cs) (ds : List Char) :
    split sep (cs ++ sep :: ds) = cs :: split sep ds := by
  rw [split_eq_splitOn, split_eq_splitOn]
  exact List.splitOn_append_cons_self_of_not_mem h ds

theorem split_of_not_mem {cs : List Char} (h : sep ∉ cs) : split sep cs = [cs] := by
  rw [split_eq_splitOn]
  exact List.splitOn_eq_singleton h

/-- A text has one part more than separators. -/
theorem length_split (sep : Char) (cs : List Char) :
    (split sep cs).length = cs.count sep + 1 := by
  induction cs with
  | nil => rfl
  | cons c cs ih =>
      rw [split_cons, List.count_cons]
      by_cases hc : c = sep
      · rw [if_pos hc, List.length_cons, ih, if_pos (by simpa using hc)]
      · obtain ⟨part, parts, hp⟩ : ∃ part parts, split sep cs = part :: parts := by
          rw [split_eq_splitOn]
          exact List.exists_cons_of_ne_nil (List.splitOn_ne_nil sep cs)
        rw [hp, List.length_cons] at ih
        rw [if_neg hc, hp, if_neg (by simpa using hc)]
        exact ih

theorem not_mem_of_mem_split {cs part : List Char} (h : part ∈ split sep cs) :
    sep ∉ part := by
  induction cs generalizing part with
  | nil =>
      rw [split_nil, List.mem_singleton] at h
      simp [h]
  | cons c cs ih =>
      rw [split_cons] at h
      by_cases hc : c = sep
      · rw [if_pos hc, List.mem_cons] at h
        obtain rfl | h := h
        · simp
        · exact ih h
      · rw [if_neg hc, List.mem_cons] at h
        obtain ⟨first, parts, hp⟩ : ∃ first parts, split sep cs = first :: parts := by
          rw [split_eq_splitOn]
          exact List.exists_cons_of_ne_nil (List.splitOn_ne_nil sep cs)
        rw [hp] at h ih
        obtain rfl | h := h
        · have hfirst : sep ∉ first := ih List.mem_cons_self
          simp [hfirst, Ne.symm hc]
        · exact ih (List.mem_cons_of_mem first h)

/-- The parts of a text are made of its characters. -/
theorem mem_of_mem_split {cs part : List Char} {c : Char} (h : part ∈ split sep cs)
    (hc : c ∈ part) : c ∈ cs := by
  induction cs generalizing part with
  | nil =>
      rw [split_nil, List.mem_singleton] at h
      simp [h] at hc
  | cons d cs ih =>
      obtain ⟨first, parts, hp⟩ : ∃ first parts, split sep cs = first :: parts := by
        rw [split_eq_splitOn]
        exact List.exists_cons_of_ne_nil (List.splitOn_ne_nil sep cs)
      rw [split_cons, hp] at h
      rw [hp] at ih
      by_cases hd : d = sep
      · rw [if_pos hd, List.mem_cons] at h
        obtain rfl | h := h
        · simp at hc
        · exact List.mem_cons_of_mem d (ih h hc)
      · rw [if_neg hd, List.mem_cons] at h
        obtain rfl | h := h
        · obtain rfl | hc := List.mem_cons.mp hc
          · exact List.mem_cons_self
          · exact List.mem_cons_of_mem d (ih List.mem_cons_self hc)
        · exact List.mem_cons_of_mem d (ih (List.mem_cons_of_mem first h) hc)

/-- A text has three parts exactly when it is three texts without the separator, with the
separator between them. -/
theorem split_eq_three_iff {cs a b d : List Char} :
    split sep cs = [a, b, d] ↔
      cs = a ++ sep :: (b ++ sep :: d) ∧ sep ∉ a ∧ sep ∉ b ∧ sep ∉ d := by
  constructor
  · intro h
    have hmem : ∀ part ∈ split sep cs, sep ∉ part := fun _ => not_mem_of_mem_split
    have hcs : [sep].intercalate (cs.splitOn sep) = cs := List.intercalate_splitOn sep
    rw [← split_eq_splitOn, h] at hcs
    rw [h] at hmem
    simp only [List.forall_mem_cons] at hmem
    refine ⟨?_, hmem.1, hmem.2.1, hmem.2.2.1⟩
    rw [← hcs]
    simp [List.intercalate]
  · rintro ⟨rfl, ha, hb, hd⟩
    rw [split_append_cons ha, split_append_cons hb, split_of_not_mem hd]

end TokenAuthority.Text

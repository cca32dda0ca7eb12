import TokenAuthority.Text.Blank
import Mathlib.Data.List.Basic
import Mathlib.Data.List.TakeWhile

/-!
# The blanks around a text

A text is made up of blanks, of what is left when it is trimmed, and of blanks again. What is
left has no blank at either end, and unless nothing is left, the text falls into three such
parts in one way only.
-/

namespace TokenAuthority.Text

/-- Nothing but blanks. -/
def AllBlank (cs : List Char) : Prop := ∀ c ∈ cs, isBlank c

instance (cs : List Char) : Decidable (AllBlank cs) :=
  List.decidableBAll _ cs

/-- No blank at either end. -/
structure Trimmed (cs : List Char) : Prop where
  head : ∀ c ∈ cs.head?, ¬isBlank c
  last : ∀ c ∈ cs.getLast?, ¬isBlank c

variable {cs ds before after : List Char}

theorem allBlank_nil : AllBlank [] := List.forall_mem_nil _

@[simp] theorem allBlank_reverse : AllBlank cs.reverse ↔ AllBlank cs := by
  simp [AllBlank]

theorem trimmed_of_forall (h : ∀ c ∈ cs, ¬isBlank c) : Trimmed cs where
  head c hc := h c (List.mem_of_head? hc)
  last c hc := h c (List.mem_of_getLast? hc)

/-! ### At one end -/

theorem trimStart_append (h : AllBlank before) (cs : List Char) :
    trimStart (before ++ cs) = trimStart cs :=
  List.dropWhile_append_of_pos h

theorem trimStart_eq_self_iff : trimStart cs = cs ↔ ∀ c ∈ cs.head?, ¬isBlank c := by
  rw [trimStart, List.dropWhile_eq_self_iff]
  cases cs with
  | nil => simp
  | cons c cs => simp

theorem exists_trimStart (cs : List Char) :
    ∃ before, AllBlank before ∧ cs = before ++ trimStart cs :=
  ⟨cs.takeWhile isBlank, fun _ => List.mem_takeWhile_imp, List.takeWhile_append_dropWhile.symm⟩

theorem not_isBlank_of_head?_trimStart {c : Char} (hc : c ∈ (trimStart cs).head?) :
    ¬isBlank c := by
  have hhead := List.head?_dropWhile_not isBlank cs
  rw [trimStart, Option.mem_def] at hc
  rw [hc] at hhead
  rw [Bool.not_eq_true]
  exact hhead

/-- The end of a text is the start of the reversed one. -/
theorem trimEnd_eq_reverse (cs : List Char) : trimEnd cs = (trimStart cs.reverse).reverse := rfl

theorem trimEnd_append (h : AllBlank after) (cs : List Char) :
    trimEnd (cs ++ after) = trimEnd cs := by
  rw [trimEnd_eq_reverse, List.reverse_append, trimStart_append (allBlank_reverse.mpr h),
    trimEnd_eq_reverse]

theorem trimEnd_eq_self_iff : trimEnd cs = cs ↔ ∀ c ∈ cs.getLast?, ¬isBlank c := by
  rw [trimEnd_eq_reverse, List.reverse_eq_iff, trimStart_eq_self_iff, List.head?_reverse]

theorem exists_trimEnd (cs : List Char) : ∃ after, AllBlank after ∧ cs = trimEnd cs ++ after := by
  obtain ⟨before, hblank, heq⟩ := exists_trimStart cs.reverse
  refine ⟨before.reverse, allBlank_reverse.mpr hblank, ?_⟩
  rw [trimEnd_eq_reverse, ← List.reverse_append, ← heq, List.reverse_reverse]

theorem not_isBlank_of_getLast?_trimEnd {c : Char} (hc : c ∈ (trimEnd cs).getLast?) :
    ¬isBlank c := by
  rw [trimEnd_eq_reverse, List.getLast?_reverse] at hc
  exact not_isBlank_of_head?_trimStart hc

/-! ### At both ends -/

theorem trimmed_trim (cs : List Char) : Trimmed (trim cs) where
  head c hc := by
    obtain ⟨after, -, heq⟩ := exists_trimEnd (trimStart cs)
    have hhead : (trimStart cs).head? = some c := by
      rw [trim, Option.mem_def] at hc
      rw [heq, List.head?_append, hc, Option.some_or]
    exact not_isBlank_of_head?_trimStart hhead
  last _ hc := not_isBlank_of_getLast?_trimEnd hc

/-- Trimming takes blanks off at either end, and nothing else. -/
theorem exists_trim (cs : List Char) :
    ∃ before after, AllBlank before ∧ AllBlank after ∧ cs = before ++ trim cs ++ after := by
  obtain ⟨before, hbefore, hstart⟩ := exists_trimStart cs
  obtain ⟨after, hafter, hend⟩ := exists_trimEnd (trimStart cs)
  refine ⟨before, after, hbefore, hafter, ?_⟩
  rw [trim, List.append_assoc, ← hend, ← hstart]

theorem trim_of_allBlank (h : AllBlank cs) : trim cs = [] := by
  have hstart := trimStart_append h []
  rw [List.append_nil] at hstart
  rw [trim, hstart, trimStart_nil, trimEnd_nil]

/-- Between blanks, a text without blanks at its ends is found. -/
theorem trim_append (hbefore : AllBlank before) (h : Trimmed cs) (hafter : AllBlank after) :
    trim (before ++ cs ++ after) = cs := by
  rw [trim, List.append_assoc, trimStart_append hbefore]
  cases cs with
  | nil => exact trim_of_allBlank hafter
  | cons c cs =>
      have hstart : trimStart (c :: cs ++ after) = c :: cs ++ after :=
        trimStart_eq_self_iff.mpr h.head
      rw [hstart, trimEnd_append hafter, trimEnd_eq_self_iff.mpr h.last]

theorem trim_eq_self_iff : trim cs = cs ↔ Trimmed cs := by
  constructor
  · intro h
    rw [← h]
    exact trimmed_trim cs
  · intro h
    have htrim := trim_append allBlank_nil h allBlank_nil
    rwa [List.nil_append, List.append_nil] at htrim

instance (cs : List Char) : Decidable (Trimmed cs) :=
  decidable_of_iff _ trim_eq_self_iff

theorem trim_eq_nil_iff : trim cs = [] ↔ AllBlank cs := by
  refine ⟨fun h => ?_, trim_of_allBlank⟩
  obtain ⟨before, after, hbefore, hafter, heq⟩ := exists_trim cs
  rw [h, List.append_nil] at heq
  rw [heq]
  exact List.forall_mem_append.mpr ⟨hbefore, hafter⟩

/-- A part at the end of a trimmed text is not made of blanks. -/
theorem Trimmed.not_allBlank (h : Trimmed (cs ++ ds)) (hds : ds ≠ []) : ¬AllBlank ds := by
  intro hblank
  have hlast : ds.getLast hds ∈ (cs ++ ds).getLast? := by
    rw [List.getLast?_append_of_ne_nil _ hds]
    exact List.getLast?_eq_some_getLast hds
  exact h.last _ hlast (hblank _ (List.getLast_mem hds))

theorem takeWhile_isBlank_append (hbefore : AllBlank before) (hcs : cs ≠ []) (h : Trimmed cs)
    (after : List Char) : (before ++ cs ++ after).takeWhile isBlank = before := by
  obtain ⟨c, rest, rfl⟩ := List.exists_cons_of_ne_nil hcs
  rw [List.append_assoc, List.takeWhile_append_of_pos hbefore, List.cons_append,
    List.takeWhile_cons_of_neg (h.head c rfl), List.append_nil]

/-- Blanks, a trimmed text that is not empty, and blanks are told apart in one way. -/
theorem eq_of_append_eq {before' ds after' : List Char} (hbefore : AllBlank before)
    (hcs : cs ≠ []) (h : Trimmed cs) (hafter : AllBlank after) (hbefore' : AllBlank before')
    (h' : Trimmed ds) (hafter' : AllBlank after')
    (heq : before ++ cs ++ after = before' ++ ds ++ after') :
    before = before' ∧ cs = ds ∧ after = after' := by
  obtain rfl : cs = ds := by
    rw [← trim_append hbefore h hafter, heq, trim_append hbefore' h' hafter']
  obtain rfl : before = before' := by
    rw [← takeWhile_isBlank_append hbefore hcs h after, heq,
      takeWhile_isBlank_append hbefore' hcs h after']
  exact ⟨rfl, rfl, List.append_cancel_left heq⟩

end TokenAuthority.Text

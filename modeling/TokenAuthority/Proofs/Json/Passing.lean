import TokenAuthority.Proofs.Json.Grammar
import Mathlib.Data.List.DropRight

/-!
# Passing over any value

Every value of the notation is passed over, however it is spelled and however deeply it is
nested: what is left is what stands behind it. The fuel is used up by the values and the marks
that open and close lists and objects, and each of them has an octet of its own.
-/

namespace TokenAuthority.Json

/-! ### Numbers -/

section

variable {ds fraction exponent rest tail : Bytes}

theorem dropWhile_digits (h : IsDigits ds) (htail : ∀ b ∈ tail.head?, ¬isDigit b) :
    (ds ++ tail).dropWhile isDigit = tail := by
  rw [List.dropWhile_append_of_pos h.2]
  cases tail with
  | nil => rfl
  | cons b tail => exact List.dropWhile_cons_of_neg (htail b rfl)

theorem IsDigits.exists_cons (h : IsDigits ds) : ∃ b others, ds = b :: others ∧ isDigit b := by
  obtain ⟨b, others, rfl⟩ := List.exists_cons_of_ne_nil h.1
  exact ⟨b, others, rfl, h.2 b List.mem_cons_self⟩

theorem ne_of_isDigit {b c : UInt8} (hb : isDigit b) (hc : ¬isDigit c) : b ≠ c := by
  rintro rfl
  exact hc hb

/-- Neither a digit nor a point stands in front of an exponent, or behind a number. -/
theorem IsExponent.head_append (h : IsExponent exponent) (hrest : EndsWhole rest) :
    ∀ b ∈ (exponent ++ rest).head?, ¬isDigit b ∧ b ≠ 0x2E := by
  cases h with
  | none => exact fun b hb => ⟨(hrest b hb).1, (hrest b hb).2.1⟩
  | some exponent signed digits =>
      intro b hb
      obtain rfl := Option.some.inj hb
      obtain rfl | rfl := exponent <;> decide

theorem IsExponent.passExponentIfAny_append (h : IsExponent exponent) (hrest : EndsWhole rest) :
    passExponentIfAny (exponent ++ rest) = .ok rest := by
  cases h with
  | none =>
      cases rest with
      | nil => rfl
      | cons b rest =>
          obtain ⟨-, -, he, hE⟩ := hrest b rfl
          rw [List.nil_append, passExponentIfAny, if_neg (by simp [he, hE])]
  | @some letter sign ds exponent signed digits =>
      obtain ⟨b, others, rfl, hb⟩ := digits.exists_cons
      have hdrop := dropWhile_digits digits fun b hb => (hrest b hb).1
      have hsign : ¬(b = 0x2B ∨ b = 0x2D) := by
        rintro (rfl | rfl)
        · exact absurd hb (by decide)
        · exact absurd hb (by decide)
      rw [List.cons_append] at hdrop
      rw [List.cons_append, passExponentIfAny, if_pos exponent]
      unfold passExponent
      obtain rfl | rfl | rfl := signed
      · simp only [List.nil_append, List.cons_append, if_neg hsign, if_pos hb, hdrop]
      · simp only [List.nil_append, List.cons_append, true_or, if_true, if_pos hb, hdrop]
      · simp only [List.nil_append, List.cons_append, or_true, if_true, if_pos hb, hdrop]

/-- No digit stands in front of what follows the whole digits of a number. -/
theorem IsFraction.head_append (h : IsFraction fraction) (he : IsExponent exponent)
    (hrest : EndsWhole rest) : ∀ b ∈ (fraction ++ (exponent ++ rest)).head?, ¬isDigit b := by
  cases h with
  | none => exact fun b hb => (he.head_append hrest b hb).1
  | some digits =>
      intro b hb
      obtain rfl := Option.some.inj hb
      decide

theorem IsFraction.passBehindWhole_append (h : IsFraction fraction) (he : IsExponent exponent)
    (hrest : EndsWhole rest) : passBehindWhole (fraction ++ (exponent ++ rest)) = .ok rest := by
  have hexponent := he.passExponentIfAny_append hrest
  have hhead := he.head_append hrest
  cases h with
  | none =>
      rw [List.nil_append]
      generalize exponent ++ rest = tail at hexponent hhead ⊢
      cases tail with
      | nil => exact hexponent
      | cons b tail =>
          unfold passBehindWhole
          dsimp only
          rw [if_neg (hhead b rfl).2, hexponent]
  | some digits =>
      have hdrop := dropWhile_digits digits fun b hb => (hhead b hb).1
      obtain ⟨b, others, rfl, hb⟩ := digits.exists_cons
      rw [List.cons_append] at hdrop
      rw [List.cons_append, List.cons_append]
      unfold passBehindWhole
      dsimp only
      rw [if_pos rfl, if_pos hb, hdrop, hexponent]

theorem IsUnsigned.passNumber_append {bs : Bytes} (h : IsUnsigned bs) (hrest : EndsWhole rest) :
    passNumber (bs ++ rest) = .ok rest := by
  obtain ⟨⟨digits, hzero⟩, hf, he⟩ := h
  have hbehind := hf.passBehindWhole_append he hrest
  have hhead := hf.head_append he hrest
  have hdrop := dropWhile_digits digits hhead
  obtain ⟨b, others, rfl, hb⟩ := digits.exists_cons
  rw [List.append_assoc, List.append_assoc]
  rw [List.cons_append] at hdrop ⊢
  by_cases hfirst : b = 0x30
  · subst hfirst
    obtain ⟨-, rfl⟩ := List.cons.inj (hzero rfl)
    rw [List.nil_append, passNumber, if_pos rfl, if_neg, hbehind]
    cases hoption : (_ ++ (_ ++ rest) : Bytes).head? with
    | none => simp
    | some c => simpa using hhead c hoption
  · rw [passNumber, if_neg hfirst, if_pos hb]
    rw [List.dropWhile_cons_of_pos hb] at hdrop
    rw [hdrop, hbehind]

theorem IsUnsigned.exists_cons {bs : Bytes} (h : IsUnsigned bs) :
    ∃ b others, bs = b :: others ∧ isDigit b := by
  obtain ⟨⟨digits, -⟩, -, -⟩ := h
  obtain ⟨b, others, rfl, hb⟩ := digits.exists_cons
  exact ⟨b, _, rfl, hb⟩

end

/-! ### Where a part begins -/

theorem ne_mark_of_isDigit {b : UInt8} (h : isDigit b) : ¬isSpace b ∧ b ≠ 0x5D ∧ b ≠ 0x7D := by
  rw [isDigit_iff] at h
  simp only [isSpace_iff, ne_eq, ← UInt8.toNat_inj]
  change ¬_ ∧ ¬b.toNat = 0x5D ∧ ¬b.toNat = 0x7D
  omega

/-- The first octet behind the blanks in front closes nothing. -/
def HasFront (bs : Bytes) : Prop := ∃ b others, skipSpace bs = b :: others ∧ b ≠ 0x5D ∧ b ≠ 0x7D

theorem HasFront.of_cons {b : UInt8} (h : ¬isSpace b ∧ b ≠ 0x5D ∧ b ≠ 0x7D) (others : Bytes) :
    HasFront (b :: others) :=
  ⟨b, others, skipSpace_of_not_space h.1 others, h.2⟩

theorem HasFront.append {bs : Bytes} (h : HasFront bs) (tail : Bytes) : HasFront (bs ++ tail) := by
  obtain ⟨b, others, hskip, hb⟩ := h
  refine ⟨b, others ++ tail, ?_, hb⟩
  rw [skipSpace] at hskip ⊢
  rw [List.dropWhile_append, hskip]
  rfl

theorem HasFront.behind_blank {blank bs : Bytes} (hblank : IsBlank blank) (h : HasFront bs) :
    HasFront (blank ++ bs) := by
  rw [HasFront, skipSpace_blank hblank]
  exact h

/-- Every part begins with an octet that closes nothing. -/
theorem Form.hasFront {part : Part} {bs : Bytes} (h : Form part bs) : HasFront bs := by
  induction h with
  | null => exact .of_cons (by decide) _
  | yes => exact .of_cons (by decide) _
  | no => exact .of_cons (by decide) _
  | number digits =>
      cases digits with
      | positive unsigned =>
          obtain ⟨b, others, rfl, hb⟩ := unsigned.exists_cons
          exact .of_cons (ne_mark_of_isDigit hb) others
      | negative unsigned => exact .of_cons (by decide) _
  | text spelled =>
      cases spelled
      exact .of_cons (by decide) _
  | emptyList _ => exact .of_cons (by decide) _
  | list _ _ => exact .of_cons (by decide) _
  | emptyObject _ => exact .of_cons (by decide) _
  | object _ _ => exact .of_cons (by decide) _
  | item leading _ _ ih => exact .behind_blank leading (ih.append _)
  | lastItem _ ih => exact ih.append _
  | moreItems _ _ ih _ => exact ih.append _
  | member leading named _ _ _ _ _ =>
      cases named
      exact .behind_blank leading (.of_cons (by decide) _)
  | lastMember _ ih => exact ih.append _
  | moreMembers _ _ ih _ => exact ih.append _

/-! ### Lists and objects -/

/-- What follows an element inside the given open frames, and all of these. -/
def passElement (fuel : Nat) (f : Frame) (frames : List Frame) (bs : Bytes) :
    Except Error Bytes := do
  passValue fuel (f :: frames) (← f.element bs)

section

variable {f : Frame} {frames : List Frame} {fuel : Nat} {blank bs rest : Bytes}

theorem word_append (w rest : Bytes) : word w (w ++ rest) = .ok rest := by
  induction w with
  | nil => rfl
  | cons b w ih => rw [List.cons_append, word, if_pos rfl, ih]

theorem passValue_blank (h : IsBlank blank) :
    passValue fuel frames (blank ++ bs) = passValue fuel frames bs := by
  cases fuel with
  | zero => rfl
  | succ fuel => rw [passValue, passValue, skipSpace_blank h]

theorem passFrames_blank (h : IsBlank blank) :
    passFrames fuel (f :: frames) (blank ++ bs) = passFrames fuel (f :: frames) bs := by
  cases fuel with
  | zero => rfl
  | succ fuel => rw [passFrames, passFrames, skipSpace_blank h]

theorem passElement_blank (h : IsBlank blank) :
    passElement fuel f frames (blank ++ bs) = passElement fuel f frames bs := by
  cases f with
  | list => exact passValue_blank h
  | object => rw [passElement, passElement, Frame.element, Frame.element, skipSpace_blank h]

theorem passFrames_comma :
    passFrames (fuel + 1) (f :: frames) (0x2C :: rest) = passElement fuel f frames rest := by
  rw [passFrames, skipSpace_of_not_space (by decide)]
  rfl

theorem passFrames_closing :
    passFrames (fuel + 1) (f :: frames) (f.closing :: rest) = passFrames fuel frames rest := by
  cases f with
  | list =>
      rw [passFrames, skipSpace_of_not_space (by decide)]
      rfl
  | object =>
      rw [passFrames, skipSpace_of_not_space (by decide)]
      rfl

/-- A list or an object whose first element is in front is passed over element by element. -/
theorem passOpened_of_front (h : HasFront bs) :
    passOpened (fuel + 1) f frames bs = passElement fuel f frames bs := by
  obtain ⟨b, others, hskip, hlist, hobject⟩ := h
  have hspace : skipSpace (b :: others) = b :: others := by
    rw [← hskip, skipSpace, skipSpace, List.dropWhile_idempotent]
  have hclosing : b ≠ f.closing := by
    cases f
    · exact hlist
    · exact hobject
  rw [passOpened, hskip]
  dsimp only
  rw [if_neg hclosing]
  cases f with
  | list =>
      change passValue fuel (.list :: frames) (b :: others) = passValue fuel (.list :: frames) bs
      cases fuel with
      | zero => rfl
      | succ fuel => rw [passValue, passValue, hspace, hskip]
  | object => rw [passElement, Frame.element, Frame.element, hspace, hskip]

theorem passOpened_closing {inside : Bytes} (h : IsBlank inside) :
    passOpened (fuel + 1) f frames (inside ++ f.closing :: rest) = passFrames fuel frames rest := by
  have hspace : ¬isSpace f.closing := by cases f <;> decide
  rw [passOpened, skipSpace_blank h, skipSpace_of_not_space hspace]
  dsimp only
  rw [if_pos rfl]

/-! ### All values -/

/-- An element of a frame is passed over with fuel to spare. -/
def PassesElement (f : Frame) (bs : Bytes) : Prop :=
  ∃ n ≤ 2 * bs.length, ∀ fuel frames rest, EndsWhole rest →
    passElement (fuel + n) f frames (bs ++ rest) = passFrames fuel (f :: frames) rest

/-- The elements of a frame and its end are passed over with fuel to spare. -/
def PassesElements (f : Frame) (bs : Bytes) : Prop :=
  ∃ n ≤ 2 * bs.length, ∀ fuel frames rest,
    passElement (fuel + n) f frames (bs ++ rest) = passFrames fuel frames rest

/-- A part is passed over with fuel to spare. -/
def Passes : Part → Bytes → Prop
  | .value, bs => ∃ n ≤ 2 * bs.length, ∀ fuel frames rest, EndsWhole rest →
      passValue (fuel + n) frames (bs ++ rest) = passFrames fuel frames rest
  | .item, bs => PassesElement .list bs
  | .items, bs => PassesElements .list bs
  | .member _ _, bs => PassesElement .object bs
  | .members _, bs => PassesElements .object bs

theorem endsWhole_closing (f : Frame) (rest : Bytes) : EndsWhole (f.closing :: rest) := by
  intro b hb
  obtain rfl := Option.some.inj hb
  cases f <;> decide

theorem endsWhole_comma (rest : Bytes) : EndsWhole (0x2C :: rest) := by
  intro b hb
  obtain rfl := Option.some.inj hb
  decide

theorem EndsWhole.behind_blank (hblank : IsBlank blank) (h : EndsWhole rest) :
    EndsWhole (blank ++ rest) := by
  cases blank with
  | nil => exact h
  | cons b blank =>
      intro c hc
      obtain rfl := Option.some.inj hc
      have hspace := hblank b List.mem_cons_self
      rw [isSpace_iff] at hspace
      simp only [isDigit_iff, ne_eq, ← UInt8.toNat_inj]
      change ¬_ ∧ ¬b.toNat = 0x2E ∧ ¬b.toNat = 0x65 ∧ ¬b.toNat = 0x45
      omega

theorem PassesElement.last (h : PassesElement f bs) : PassesElements f (bs ++ [f.closing]) := by
  obtain ⟨n, hn, hpass⟩ := h
  refine ⟨n + 1, by rw [List.length_append, List.length_singleton]; omega, ?_⟩
  intro fuel frames rest
  have hstep := hpass (fuel + 1) frames (f.closing :: rest) (endsWhole_closing f rest)
  rw [passFrames_closing] at hstep
  rw [List.append_assoc, List.singleton_append, ← hstep, Nat.add_right_comm, Nat.add_assoc]

theorem PassesElement.more {others : Bytes} (h : PassesElement f bs)
    (hothers : PassesElements f others) : PassesElements f (bs ++ 0x2C :: others) := by
  obtain ⟨n, hn, hpass⟩ := h
  obtain ⟨n', hn', hpass'⟩ := hothers
  refine ⟨n' + 1 + n, by rw [List.length_append, List.length_cons]; omega, ?_⟩
  intro fuel frames rest
  have hstep := hpass (fuel + n' + 1) frames (0x2C :: (others ++ rest)) (endsWhole_comma _)
  rw [passFrames_comma, hpass'] at hstep
  have hfuel : fuel + (n' + 1 + n) = fuel + n' + 1 + n := by omega
  rw [List.append_assoc, List.cons_append, hfuel, hstep]

/-- What opens a frame uses up fuel of its own. -/
theorem PassesElements.passValue (h : PassesElements f bs) (hfront : HasFront bs) {b : UInt8}
    (hopen : ∀ {fuel frames rest},
      passValue (fuel + 1) frames (b :: rest) = passOpened fuel f frames rest) :
    Passes .value (b :: bs) := by
  obtain ⟨n, hn, hpass⟩ := h
  refine ⟨n + 2, by rw [List.length_cons]; omega, ?_⟩
  intro fuel frames rest _
  have hfuel : fuel + (n + 2) = fuel + n + 1 + 1 := by omega
  rw [List.cons_append, hfuel, hopen, passOpened_of_front (hfront.append rest), hpass]

/-- A value that leaves no frame open is passed over in one step. -/
theorem passes_of_step (hbs : bs ≠ [])
    (h : ∀ fuel frames rest, EndsWhole rest →
      passValue (fuel + 1) frames (bs ++ rest) = passFrames fuel frames rest) :
    Passes .value bs := by
  have hlength := List.length_pos_iff.mpr hbs
  exact ⟨1, by omega, h⟩

theorem IsNumber.ne_nil (h : IsNumber bs) : bs ≠ [] := by
  cases h with
  | positive unsigned =>
      obtain ⟨b, others, rfl, -⟩ := unsigned.exists_cons
      exact List.cons_ne_nil b others
  | negative unsigned => exact List.cons_ne_nil _ _

theorem IsText.ne_nil {s : String} (h : IsText s bs) : bs ≠ [] := by
  cases h
  exact List.cons_ne_nil _ _

theorem IsNumber.passValue_append (h : IsNumber bs) (hrest : EndsWhole rest) :
    passValue (fuel + 1) frames (bs ++ rest) = passFrames fuel frames rest := by
  cases h with
  | positive unsigned =>
      have hpass := unsigned.passNumber_append hrest
      obtain ⟨b, others, rfl, hb⟩ := unsigned.exists_cons
      have hne : ∀ c : UInt8, ¬isDigit c → b ≠ c := fun c => ne_of_isDigit hb
      rw [List.cons_append] at hpass ⊢
      rw [passValue, skipSpace_of_not_space (ne_mark_of_isDigit hb).1]
      dsimp only
      rw [if_neg (hne _ (by decide)), if_neg (hne _ (by decide)), if_neg (hne _ (by decide)),
        if_neg (hne _ (by decide)), if_pos hb, hpass]
      rfl
  | negative unsigned =>
      rw [List.cons_append, passValue, skipSpace_of_not_space (by decide)]
      dsimp only
      rw [if_neg (by decide), if_neg (by decide), if_neg (by decide), if_pos rfl,
        unsigned.passNumber_append hrest]
      rfl

theorem IsText.passValue_append {s : String} (h : IsText s bs) :
    passValue (fuel + 1) frames (bs ++ rest) = passFrames fuel frames rest := by
  cases h with
  | mk spelled =>
      rw [List.cons_append, List.append_assoc, List.singleton_append, passValue,
        skipSpace_of_not_space (by decide)]
      dsimp only
      rw [if_neg (by decide), if_neg (by decide), if_neg (by decide), if_neg (by decide),
        if_neg (by decide), if_pos rfl, spelled.passText_append]
      rfl

theorem passValue_openList : passValue (fuel + 1) frames (0x5B :: rest) =
    passOpened fuel .list frames rest := by
  rw [passValue, skipSpace_of_not_space (by decide)]
  rfl

theorem passValue_openObject : passValue (fuel + 1) frames (0x7B :: rest) =
    passOpened fuel .object frames rest := by
  rw [passValue, skipSpace_of_not_space (by decide)]
  rfl

/-- What stands behind the name of a member is a colon and its value. -/
theorem colon_append {beside : Bytes} (h : IsBlank beside) (bs : Bytes) :
    colon (beside ++ 0x3A :: bs) = .ok bs := by
  rw [colon, skipSpace_blank h, skipSpace_of_not_space (by decide)]
  rfl

theorem passElement_member {name : String} {spelling beside : Bytes} (hname : IsText name spelling)
    (hbeside : IsBlank beside) (bs : Bytes) :
    passElement fuel .object frames (spelling ++ (beside ++ 0x3A :: bs)) =
      passValue fuel (.object :: frames) bs := by
  cases hname with
  | mk spelled =>
      rw [List.cons_append, List.append_assoc, List.singleton_append, passElement, Frame.element,
        skipSpace_of_not_space (by decide)]
      dsimp only
      rw [if_pos rfl, spelled.passText_append]
      simp only [bind, Except.bind, colon_append hbeside]

theorem passValue_word {b : UInt8} {tail : Bytes}
    (h : (b, tail) ∈ [(0x6E, nullTail), (0x74, trueTail), (0x66, falseTail)]) :
    passValue (fuel + 1) frames (b :: tail ++ rest) = passFrames fuel frames rest := by
  simp only [List.mem_cons, Prod.mk.injEq, List.not_mem_nil, or_false] at h
  obtain ⟨rfl, rfl⟩ | ⟨rfl, rfl⟩ | ⟨rfl, rfl⟩ := h
  · rw [List.cons_append, passValue, skipSpace_of_not_space (by decide)]
    dsimp only
    rw [if_pos rfl, word_append]
    rfl
  · rw [List.cons_append, passValue, skipSpace_of_not_space (by decide)]
    dsimp only
    rw [if_neg (by decide), if_pos rfl, word_append]
    rfl
  · rw [List.cons_append, passValue, skipSpace_of_not_space (by decide)]
    dsimp only
    rw [if_neg (by decide), if_neg (by decide), if_pos rfl, word_append]
    rfl

/-- Every part of the notation is passed over. -/
theorem Form.passes {part : Part} (h : Form part bs) : Passes part bs := by
  induction h with
  | null => exact passes_of_step (by simp) fun _ _ _ _ => passValue_word (by simp)
  | yes => exact passes_of_step (by simp) fun _ _ _ _ => passValue_word (by simp)
  | no => exact passes_of_step (by simp) fun _ _ _ _ => passValue_word (by simp)
  | number digits => exact passes_of_step digits.ne_nil fun _ _ _ => digits.passValue_append
  | text spelled =>
      exact passes_of_step spelled.ne_nil fun _ _ _ _ => spelled.passValue_append
  | emptyList blank =>
      refine ⟨2, by simp, fun fuel frames rest _ => ?_⟩
      rw [List.cons_append, List.append_assoc, passValue_openList]
      exact passOpened_closing blank
  | list items ih => exact ih.passValue items.hasFront passValue_openList
  | emptyObject blank =>
      refine ⟨2, by simp, fun fuel frames rest _ => ?_⟩
      rw [List.cons_append, List.append_assoc, passValue_openObject]
      exact passOpened_closing blank
  | object members ih => exact ih.passValue members.hasFront passValue_openObject
  | @item before value behind leading form trailing ih =>
      obtain ⟨n, hn, hpass⟩ := ih
      refine ⟨n, by simp only [List.length_append]; omega, ?_⟩
      intro fuel frames rest hrest
      rw [List.append_assoc, List.append_assoc, passElement_blank leading]
      change passValue (fuel + n) (.list :: frames) _ = _
      rw [hpass _ _ _ (hrest.behind_blank trailing), passFrames_blank trailing]
  | lastItem _ ih => exact ih.last
  | moreItems _ _ ih ihs => exact ih.more ihs
  | member leading named middle inner form trailing ih =>
      obtain ⟨n, hn, hpass⟩ := ih
      refine ⟨n, by simp only [List.length_append, List.length_cons]; omega, ?_⟩
      intro fuel frames rest hrest
      simp only [List.append_assoc, List.cons_append]
      rw [passElement_blank leading, passElement_member named middle, passValue_blank inner,
        hpass _ _ _ (hrest.behind_blank trailing), passFrames_blank trailing]
  | lastMember _ ih => exact ih.last
  | moreMembers _ _ ih ihs => exact ih.more ihs

/-- What is left behind a value that is passed over is what stands behind it. -/
theorem Form.pass_append (h : Form .value bs) (hblank : IsBlank blank) (hrest : EndsWhole rest) :
    pass (blank ++ (bs ++ rest)) = .ok rest := by
  obtain ⟨n, hn, hpass⟩ := h.passes
  obtain ⟨spare, hspare⟩ : ∃ spare, 2 * (blank ++ (bs ++ rest)).length + 1 = spare + n :=
    ⟨2 * (blank ++ (bs ++ rest)).length + 1 - n, by simp only [List.length_append]; omega⟩
  rw [pass, hspare, passValue_blank hblank, hpass _ _ _ hrest, passFrames]

end

end TokenAuthority.Json

import TokenAuthority.Json.Record
import TokenAuthority.Proofs.Json.Taking

/-!
# Records in any spelling

What a record reads from an object depends on the members that it knows, and on nothing else:
neither on their order nor on blanks nor on the spelling of names and values nor on other
members. No member that it knows may be there twice.
-/

namespace TokenAuthority.Json.Record

variable {σ : Type} {r : Record σ}

/-! ### One member -/

/-- What stands in front of a member: a comma, but for the first. -/
def lead (first : Bool) : Bytes := if first then [] else [0x2C]

section

variable {first : Bool} {fuel : Nat} {draft next : σ} {name : String}
  {blank before spelling beside inside value bs rest tail : Bytes}

theorem member_colon (draft : σ) (name : String) (hbeside : IsBlank beside) :
    r.member draft name (beside ++ 0x3A :: bs) =
      match r.fields.find? (·.name == name) with
      | some f => if f.given draft then .error (.duplicate f.name) else f.read draft bs
      | none => do return (draft, ← pass bs) := by
  rw [member, colon_append hbeside]
  rfl

/-- A member is read up to what stands behind its name, and the others follow. -/
theorem members_member (hblank : IsBlank blank) (hbefore : IsBlank before)
    (hname : IsText name spelling) :
    r.members (fuel + 1) first draft (blank ++ (lead first ++ (before ++ (spelling ++ bs)))) = (do
      let (draft, rest) ← r.member draft name bs
      r.members fuel false draft rest) := by
  cases hname with
  | mk spelled =>
      cases first with
      | true =>
          rw [lead, if_pos rfl, List.nil_append, List.cons_append, List.append_assoc, members,
            skipSpace_blank hblank, skipSpace_blank_cons hbefore (by decide)]
          dsimp only
          rw [if_neg (by decide), if_pos rfl, if_pos rfl, List.singleton_append,
            spelled.textBody_append]
          rfl
      | false =>
          rw [lead, if_neg (by decide), List.singleton_append, List.cons_append,
            List.append_assoc, members, skipSpace_blank_cons hblank (by decide)]
          dsimp only
          rw [if_neg (by decide), if_neg (by decide), if_pos rfl,
            skipSpace_blank_cons hbefore (by decide)]
          dsimp only
          rw [if_pos rfl, List.singleton_append, spelled.textBody_append]
          rfl

/-- Nothing stands in front of the first member. -/
theorem members_nil_lead :
    r.members fuel true draft ([] ++ (lead true ++ bs)) = r.members fuel true draft bs := rfl

theorem members_close (hblank : IsBlank blank) :
    r.members (fuel + 1) first draft (blank ++ 0x7D :: rest) = do
      return (← r.complete draft, rest) := by
  rw [members, skipSpace_blank_cons hblank (by decide)]
  dsimp only
  rw [if_pos rfl]

end

/-! ### No member twice -/

/-- Each field takes whole values, has been given when it was read, and leaves the others as
they were given. -/
structure Lawful (r : Record σ) : Prop where
  nodup : (r.fields.map Field.name).Nodup
  takes : ∀ f ∈ r.fields, ∀ draft, TakesValues (f.read draft)
  given : ∀ f ∈ r.fields, ∀ {draft next bs rest}, f.read draft bs = .ok (next, rest) →
    f.given next = true
  keeps : ∀ f ∈ r.fields, ∀ g ∈ r.fields, ∀ {draft next bs rest},
    f.read draft bs = .ok (next, rest) → g.given draft = true → g.given next = true

/-- A field is set to what a reader takes, and other fields of the draft stay as they are. -/
structure Sets {α : Type} (fields : List (Field σ)) (f : Field σ) (R : Reader α)
    (into : σ → α → σ) : Prop where
  reads : ∀ draft bs, f.read draft bs = do
    let (a, rest) ← R bs
    return (into draft a, rest)
  takes : TakesValues R
  given : ∀ draft a, f.given (into draft a) = true
  keeps : ∀ g ∈ fields, ∀ draft a, g.given draft = true → g.given (into draft a) = true

theorem Sets.exists_read {α : Type} {fields : List (Field σ)} {f : Field σ} {R : Reader α}
    {into : σ → α → σ} (h : Sets fields f R into) {draft next : σ} {bs rest : Bytes}
    (hread : f.read draft bs = .ok (next, rest)) :
    ∃ a, R bs = .ok (a, rest) ∧ next = into draft a := by
  rw [h.reads] at hread
  obtain ⟨⟨a, behind⟩, hR, hread⟩ := bind_eq_ok_iff.mp hread
  cases hread
  exact ⟨a, hR, rfl⟩

/-- A record whose fields are set one by one is lawful. -/
theorem Lawful.of_sets (hnodup : (r.fields.map Field.name).Nodup)
    (h : ∀ f ∈ r.fields, ∃ (α : Type) (R : Reader α) (into : σ → α → σ),
      Sets r.fields f R into) : r.Lawful where
  nodup := hnodup
  takes f hf draft := by
    obtain ⟨α, R, into, hsets⟩ := h f hf
    intro value blank rest rest' next hvalue hblank hrest hread
    obtain ⟨a, hR, -⟩ := hsets.exists_read hread
    exact hsets.takes hvalue hblank hrest hR
  given f hf draft next bs rest hread := by
    obtain ⟨α, R, into, hsets⟩ := h f hf
    obtain ⟨a, -, rfl⟩ := hsets.exists_read hread
    exact hsets.given draft a
  keeps f hf g hg draft next bs rest hread hgiven := by
    obtain ⟨α, R, into, hsets⟩ := h f hf
    obtain ⟨a, -, rfl⟩ := hsets.exists_read hread
    exact hsets.keeps g hg draft a hgiven

section

variable {first : Bool} {fuel : Nat} {draft next last : σ} {name : String}
  {ms : List (String × Bytes)} {blank beside inside value bs rest rest' tail : Bytes}

theorem Lawful.find?_of_mem (hr : r.Lawful) {f : Field σ} (hf : f ∈ r.fields) :
    r.fields.find? (·.name == f.name) = some f := by
  cases hfind : r.fields.find? (·.name == f.name) with
  | none => simpa using List.find?_eq_none.mp hfind f hf
  | some g =>
      have hname : g.name = f.name := by simpa using List.find?_some hfind
      rw [List.inj_on_of_nodup_map hr.nodup (List.mem_of_find?_eq_some hfind) hf hname]

/-- A member that is read is taken as a whole, its field was not given before, and fields that
were are so still. -/
theorem Lawful.of_member (hr : r.Lawful) (hvalue : Form .value value) (hbeside : IsBlank beside)
    (hinside : IsBlank inside) (htail : EndsWhole tail)
    (h : r.member draft name (beside ++ 0x3A :: (inside ++ (value ++ tail))) = .ok (next, rest)) :
    rest = tail ∧ (∀ f ∈ r.fields, f.given draft = true → f.given next = true) ∧
      ∀ f ∈ r.fields, f.name = name → f.given draft = false ∧ f.given next = true := by
  rw [member_colon draft name hbeside] at h
  cases hfind : r.fields.find? (·.name == name) with
  | none =>
      rw [hfind, hvalue.pass_append hinside htail] at h
      cases h
      refine ⟨rfl, fun f _ hgiven => hgiven, fun f hf hname => ?_⟩
      rw [← hname, hr.find?_of_mem hf] at hfind
      cases hfind
  | some f =>
      have hf := List.mem_of_find?_eq_some hfind
      rw [hfind] at h
      dsimp only at h
      split_ifs at h with hgiven
      refine ⟨hr.takes f hf draft hvalue hinside htail h, fun g hg => hr.keeps f hf g hg h, ?_⟩
      intro g hg hname
      rw [← hname, hr.find?_of_mem hg] at hfind
      cases hfind
      exact ⟨by simpa using hgiven, hr.given f hf h⟩

/-- Of the members that a record reads, none has the name of a field that another one has, or
that was given before. -/
theorem Lawful.count_le (hr : r.Lawful) (h : Form (.members ms) bs) (hblank : IsBlank blank)
    (hread : r.members fuel first draft (blank ++ (lead first ++ (bs ++ rest))) =
      .ok (last, rest')) {f : Field σ} (hf : f ∈ r.fields) :
    (ms.map Prod.fst).count f.name + (if f.given draft then 1 else 0) ≤ 1 := by
  induction ms generalizing bs fuel first draft blank with
  | nil => cases h
  | cons m ms ih =>
      obtain ⟨name, value⟩ := m
      obtain ⟨front, tail, form, rfl, htail⟩ := Form.exists_member h
      obtain _ | fuel := fuel
      · cases hread
      cases form with
      | @member _ before spelling beside inside _ behind leading named middle inner form trailing =>
          have hends : EndsWhole (behind ++ (tail ++ rest)) := by
            obtain ⟨-, rfl⟩ | ⟨others, -, rfl⟩ := htail
            · exact (endsWhole_closing .object rest).behind_blank trailing
            · exact (endsWhole_comma _).behind_blank trailing
          simp only [List.append_assoc, List.cons_append] at hread
          rw [members_member hblank leading named] at hread
          obtain ⟨⟨next, behind'⟩, hmember, hread⟩ := bind_eq_ok_iff.mp hread
          obtain ⟨rfl, hkeeps, htakes⟩ := hr.of_member form middle inner hends hmember
          have hothers : (ms.map Prod.fst).count f.name + (if f.given next then 1 else 0) ≤ 1 := by
            obtain ⟨rfl, rfl⟩ | ⟨others, hms, rfl⟩ := htail
            · rw [List.map_nil, List.count_nil]
              split_ifs <;> omega
            · exact ih hms trailing hread
          rw [List.map_cons, List.count_cons]
          by_cases hname : name = f.name
          · obtain ⟨hbefore, hafter⟩ := htakes f hf hname.symm
            rw [hafter, if_pos rfl] at hothers
            rw [hbefore, if_neg Bool.false_ne_true]
            split_ifs <;> omega
          · rw [if_neg (by simpa using hname)]
            by_cases hdraft : f.given draft = true
            · rw [hkeeps f hf hdraft] at hothers
              rw [hdraft]
              exact hothers
            · rw [if_neg hdraft]
              exact Nat.le_of_add_right_le hothers

/-- An object that is read has each of the known members once at most. -/
theorem Lawful.count_le_of_readAll (hr : r.Lawful) (h : IsObject ms bs)
    (hread : r.readAll bs = .ok last) {f : Field σ} (hf : f ∈ r.fields) :
    (ms.map Prod.fst).count f.name ≤ 1 := by
  obtain ⟨leading, form, trailing⟩ := h
  rw [readAll, read, skipSpace_blank_cons leading (by decide)] at hread
  dsimp only at hread
  rw [if_pos rfl] at hread
  obtain ⟨⟨last', rest'⟩, hmembers, -⟩ := bind_eq_ok_iff.mp hread
  rw [← members_nil_lead] at hmembers
  exact Nat.le_of_add_right_le (hr.count_le form isBlank_nil hmembers hf)

/-- No object is read that has one of the known members twice. -/
theorem Lawful.exists_error_of_twice (hr : r.Lawful) (h : IsObject ms bs) {f : Field σ}
    (hf : f ∈ r.fields) (htwice : 2 ≤ (ms.map Prod.fst).count f.name) :
    ∃ e, r.readAll bs = .error e := by
  cases hread : r.readAll bs with
  | error e => exact ⟨e, rfl⟩
  | ok last =>
      have hcount := hr.count_le_of_readAll h hread hf
      omega

end

/-! ### Members in any order -/

/-- What a member adds to a draft that is told by the names of the members before it: nothing
if the record does not know the name, and else, if the name is new, what its field reads from
the value. -/
def Draws (r : Record σ) (D : List String → σ) (name : String) (value : Bytes) : Prop :=
  match r.fields.find? (·.name == name) with
  | none => ∀ seen, D (name :: seen) = D seen
  | some f => ∀ seen, name ∉ seen → f.given (D seen) = false ∧
      ∀ blank rest, IsBlank blank → EndsWhole rest →
        f.read (D seen) (blank ++ (value ++ rest)) = .ok (D (name :: seen), rest)

section

variable {D : List String → σ} {name : String} {value : Bytes}

theorem Draws.of_unknown (hfind : r.fields.find? (·.name == name) = none)
    (h : ∀ seen, D (name :: seen) = D seen) : r.Draws D name value := by
  unfold Draws
  rw [hfind]
  exact h

theorem Draws.of_field {f : Field σ} (hfind : r.fields.find? (·.name == name) = some f)
    (hgiven : ∀ seen, name ∉ seen → f.given (D seen) = false)
    (hread : ∀ seen blank rest, IsBlank blank → EndsWhole rest →
      f.read (D seen) (blank ++ (value ++ rest)) = .ok (D (name :: seen), rest)) :
    r.Draws D name value := by
  unfold Draws
  rw [hfind]
  exact fun seen hseen => ⟨hgiven seen hseen, hread seen⟩

end

section

variable {D : List String → σ} {first : Bool} {fuel : Nat} {name : String} {seen : List String}
  {ms : List (String × Bytes)} {blank beside inside value bs rest tail : Bytes}

theorem Draws.member_eq (h : r.Draws D name value) (hvalue : Form .value value)
    (hbeside : IsBlank beside) (hinside : IsBlank inside) (htail : EndsWhole tail)
    (hnew : ∀ f ∈ r.fields, f.name = name → name ∉ seen) :
    r.member (D seen) name (beside ++ 0x3A :: (inside ++ (value ++ tail))) =
      .ok (D (name :: seen), tail) := by
  rw [member_colon (D seen) name hbeside]
  unfold Draws at h
  cases hfind : r.fields.find? (·.name == name) with
  | none =>
      rw [hfind] at h
      dsimp only
      rw [hvalue.pass_append hinside htail, h seen]
      rfl
  | some f =>
      rw [hfind] at h
      have hname : f.name = name := by simpa using List.find?_some hfind
      obtain ⟨hgiven, hread⟩ := h seen (hnew f (List.mem_of_find?_eq_some hfind) hname)
      dsimp only
      rw [hgiven, if_neg Bool.false_ne_true, hread inside tail hinside htail]

/-- The members of an object are read in any order. -/
theorem members_eq_ok (h : Form (.members ms) bs) (hdraws : ∀ m ∈ ms, r.Draws D m.1 m.2)
    (honce : ∀ f ∈ r.fields, (ms.map Prod.fst).count f.name + seen.count f.name ≤ 1)
    (hcomplete : r.complete (D ((ms.map Prod.fst).reverse ++ seen)) =
      .ok (D ((ms.map Prod.fst).reverse ++ seen)))
    (hfuel : ms.length < fuel) (hblank : IsBlank blank) :
    r.members fuel first (D seen) (blank ++ (lead first ++ (bs ++ rest))) =
      .ok (D ((ms.map Prod.fst).reverse ++ seen), rest) := by
  induction ms generalizing bs fuel first seen blank with
  | nil => cases h
  | cons m ms ih =>
      obtain ⟨name, value⟩ := m
      obtain ⟨front, tail, form, rfl, htail⟩ := Form.exists_member h
      rw [List.length_cons] at hfuel
      obtain ⟨fuel, rfl⟩ : ∃ f, fuel = f + 1 + 1 := ⟨fuel - 2, by omega⟩
      have hnames : (((name, value) :: ms).map Prod.fst).reverse ++ seen =
          (ms.map Prod.fst).reverse ++ name :: seen := by simp
      rw [hnames] at hcomplete ⊢
      cases form with
      | @member _ before spelling beside inside _ behind leading named middle inner form trailing =>
          have hends : EndsWhole (behind ++ (tail ++ rest)) := by
            obtain ⟨-, rfl⟩ | ⟨others, -, rfl⟩ := htail
            · exact (endsWhole_closing .object rest).behind_blank trailing
            · exact (endsWhole_comma _).behind_blank trailing
          have hnew : ∀ f ∈ r.fields, f.name = name → name ∉ seen := by
            rintro f hf rfl hseen
            have hcount := honce f hf
            have hpos := List.count_pos_iff.mpr hseen
            rw [List.map_cons, List.count_cons_self] at hcount
            omega
          have hdrawn := hdraws (name, value) List.mem_cons_self
          simp only [List.append_assoc, List.cons_append]
          rw [members_member hblank leading named,
            hdrawn.member_eq form middle inner hends hnew]
          simp only [bind, Except.bind]
          obtain ⟨rfl, rfl⟩ | ⟨others, hms, rfl⟩ := htail
          · rw [List.singleton_append, members_close trailing]
            simp only [List.map_nil, List.reverse_nil, List.nil_append] at hcomplete ⊢
            rw [hcomplete]
            rfl
          · refine ih hms (fun m hm => hdraws m (List.mem_cons_of_mem _ hm)) ?_ hcomplete
              (by omega) trailing
            intro f hf
            have hcount := honce f hf
            rw [List.map_cons, List.count_cons] at hcount
            dsimp only at hcount
            rw [List.count_cons]
            omega

/-- What is read from an object does not depend on the order of its members, nor on how they
are spelled, nor on members that the record does not know. -/
theorem readAll_eq_ok (h : IsObject ms bs) (hdraws : ∀ m ∈ ms, r.Draws D m.1 m.2)
    (honce : ∀ f ∈ r.fields, (ms.map Prod.fst).count f.name ≤ 1) (hblank : D [] = r.blank)
    (hcomplete : r.complete (D (ms.map Prod.fst).reverse) = .ok (D (ms.map Prod.fst).reverse)) :
    r.readAll bs = .ok (D (ms.map Prod.fst).reverse) := by
  obtain @⟨before, inside, behind, leading, form, trailing⟩ := h
  have hlength := Form.length_le form
  have hfuel : ms.length < (inside ++ behind).length + 1 := by
    rw [List.length_append]
    omega
  have honce' : ∀ f ∈ r.fields, (ms.map Prod.fst).count f.name + [].count f.name ≤ 1 := honce
  rw [← List.append_nil (ms.map Prod.fst).reverse] at hcomplete ⊢
  have hmembers : r.members ((inside ++ behind).length + 1) true (D [])
      ([] ++ (lead true ++ (inside ++ behind))) = .ok (_, behind) :=
    members_eq_ok form hdraws honce' hcomplete hfuel isBlank_nil
  rw [hblank, members_nil_lead] at hmembers
  rw [readAll, read, skipSpace_blank_cons leading (by decide)]
  dsimp only
  rw [if_pos rfl, hmembers]
  simp only [bind, Except.bind]
  rw [if_pos]
  · rfl
  · rw [skipSpace, List.dropWhile_eq_nil_iff]
    exact trailing

end

end TokenAuthority.Json.Record

import TokenAuthority.Proofs.Json.Members
import TokenAuthority.Proofs.Json.Written
import TokenAuthority.Token.Contents

/-!
# Reading what a token says

A header and claims are read from every object that tells them, whatever the order of its
members, its blanks, the spelling of its texts and its other members are, and so from the octets
they are written as. A header may hold any identifier of a key and any kind, and claims any
subject and any instants of 64 binary digits with a sign. They are read from no object that tells
anything of them twice.
-/

namespace TokenAuthority

open Json

namespace Algorithm

/-- Every algorithm is the choice that its name stands for. -/
theorem choiceOf_name (a : Algorithm) :
    choiceOf (all.map fun b => (b.name, b)) a.name = .ok a := by
  obtain ⟨scheme, digest⟩ := a
  cases scheme <;> cases digest <;> rfl

end Algorithm

/-! ### Headers -/

namespace Header

/-- An object with members tells a header: it has the name of the algorithm and the identifier
once, and it may have the kind once, which may be `null`. -/
structure ToldBy (h : Header) (ms : List (String × Bytes)) : Prop where
  algorithm : Tells ms "alg" (IsText h.algorithm.name)
  keyId : Tells ms "kid" (IsText h.keyId)
  mediaType : h.mediaType = none ∧ "typ" ∉ ms.map Prod.fst ∨
    Tells ms "typ" (IsOptionalText h.mediaType)

/-- What was read of a header when the members with some names were. -/
def drawn (h : Header) (seen : List String) : Draft where
  algorithm := if "alg" ∈ seen then some h.algorithm else none
  keyId := if "kid" ∈ seen then some h.keyId else none
  mediaType := if "typ" ∈ seen then some h.mediaType else none

theorem lawful_record : record.Lawful := by
  refine .of_sets (by decide) fun f hf => ?_
  have hkeeps : ∀ d d' : Draft, (d.algorithm.isSome → d'.algorithm.isSome) →
      (d.keyId.isSome → d'.keyId.isSome) → (d.mediaType.isSome → d'.mediaType.isSome) →
      ∀ g ∈ record.fields, g.given d = true → g.given d' = true := by
    intro d d' halg hkid htyp g hg
    simp only [record, List.mem_cons, List.not_mem_nil, or_false] at hg
    obtain rfl | rfl | rfl := hg
    · exact halg
    · exact hkid
    · exact htyp
  simp only [record, List.mem_cons, List.not_mem_nil, or_false] at hf
  obtain rfl | rfl | rfl := hf
  · let into (d : Draft) (a : Algorithm) : Draft := { d with algorithm := some a }
    refine ⟨Algorithm, choice (Algorithm.all.map fun a => (a.name, a)), into, ?_,
      takesValues_choice, fun _ _ => rfl,
      fun g hg d a => hkeeps d (into d a) (fun _ => rfl) id id g hg⟩
    intro _ _
    rfl
  · let into (d : Draft) (s : String) : Draft := { d with keyId := some s }
    exact ⟨String, text, into, fun _ _ => rfl, takesValues_text, fun _ _ => rfl,
      fun g hg d s => hkeeps d (into d s) id (fun _ => rfl) id g hg⟩
  · let into (d : Draft) (s? : Option String) : Draft := { d with mediaType := some s? }
    exact ⟨Option String, optionalText, into, fun _ _ => rfl, takesValues_optionalText,
      fun _ _ => rfl, fun g hg d s? => hkeeps d (into d s?) id id (fun _ => rfl) g hg⟩

theorem find?_eq_none {name : String} (halg : name ≠ "alg") (hkid : name ≠ "kid")
    (htyp : name ≠ "typ") : record.fields.find? (·.name == name) = none := by
  simp [record, halg.symm, hkid.symm, htyp.symm]

variable {h : Header} {ms : List (String × Bytes)} {bs : Bytes}

theorem ToldBy.draws (hms : h.ToldBy ms) {m : String × Bytes} (hm : m ∈ ms) :
    record.Draws h.drawn m.1 m.2 := by
  obtain ⟨name, value⟩ := m
  by_cases halg : name = "alg"
  · subst halg
    refine .of_field rfl (fun seen hseen => by simp [drawn, hseen]) ?_
    intro seen blank rest hblank _
    have hread : choice (Algorithm.all.map fun a => (a.name, a)) (blank ++ (value ++ rest)) =
        .ok (h.algorithm, rest) := by
      rw [choice_append (hms.algorithm.of_mem hm) hblank, h.algorithm.choiceOf_name]
      rfl
    simp [hread, drawn, bind, Except.bind, pure, Except.pure]
  by_cases hkid : name = "kid"
  · subst hkid
    refine .of_field rfl (fun seen hseen => by simp [drawn, hseen]) ?_
    intro seen blank rest hblank _
    have hread : text (blank ++ (value ++ rest)) = .ok (h.keyId, rest) :=
      textAs_append (hms.keyId.of_mem hm) hblank
    simp [hread, drawn, bind, Except.bind, pure, Except.pure]
  by_cases htyp : name = "typ"
  · subst htyp
    obtain ⟨-, habsent⟩ | htells := hms.mediaType
    · exact absurd (List.mem_map_of_mem hm) habsent
    · refine .of_field rfl (fun seen hseen => by simp [drawn, hseen]) ?_
      intro seen blank rest hblank _
      have hread : optionalText (blank ++ (value ++ rest)) = .ok (h.mediaType, rest) :=
        (htells.of_mem hm).optionalText_append hblank
      simp [hread, drawn, bind, Except.bind, pure, Except.pure]
  · refine .of_unknown (find?_eq_none halg hkid htyp) fun seen => ?_
    simp [drawn, Ne.symm halg, Ne.symm hkid, Ne.symm htyp]

/-- A header is read from every object that tells it. -/
theorem read_of_toldBy (hobject : IsObject ms bs) (hms : h.ToldBy ms) : read bs = .ok h := by
  have hdrawn : h.drawn (ms.map Prod.fst).reverse = ⟨some h.algorithm, some h.keyId,
      if "typ" ∈ (ms.map Prod.fst).reverse then some h.mediaType else none⟩ := by
    rw [drawn, if_pos hms.algorithm.mem_names, if_pos hms.keyId.mem_names]
  have honce : ∀ f ∈ record.fields, (ms.map Prod.fst).count f.name ≤ 1 := by
    intro f hf
    simp only [record, List.mem_cons, List.not_mem_nil, or_false] at hf
    obtain rfl | rfl | rfl := hf
    · exact hms.algorithm.count_eq.le
    · exact hms.keyId.count_eq.le
    · obtain ⟨-, habsent⟩ | htells := hms.mediaType
      · rw [List.count_eq_zero_of_not_mem habsent]
        exact Nat.zero_le 1
      · exact htells.count_eq.le
  have hall := Record.readAll_eq_ok hobject (fun m hm => hms.draws hm) honce rfl
    (by rw [hdrawn]; rfl)
  have hkind : (if "typ" ∈ (ms.map Prod.fst).reverse then some h.mediaType else none).join =
      h.mediaType := by
    obtain ⟨hnone, habsent⟩ | htells := hms.mediaType
    · rw [if_neg (by rwa [List.mem_reverse]), hnone]
      rfl
    · rw [if_pos htells.mem_names]
      rfl
  rw [read, hall, hdrawn]
  simp only [bind, Except.bind, pure, Except.pure, hkind]

/-- A written header is told by the object that it is written as. -/
theorem toldBy_members (h : Header) : h.ToldBy (h.members.map octets) := by
  obtain ⟨a, id, _ | s⟩ := h
  · exact ⟨⟨_, rfl, isText_quoted a.name⟩, ⟨_, rfl, isText_quoted id⟩, .inl ⟨rfl, by
      simp [members, octets]⟩⟩
  · exact ⟨⟨_, rfl, isText_quoted a.name⟩, ⟨_, rfl, isText_quoted id⟩,
      .inr ⟨_, rfl, .text (isText_quoted s)⟩⟩

theorem isObject_write (h : Header) : IsObject (h.members.map octets) h.write := by
  refine isObject_compact (List.cons_ne_nil _ _) fun m hm => ?_
  have hkind : ∀ m ∈ (h.mediaType.map fun s => ("typ", quoted s)).toList, ∃ s, m.2 = quoted s := by
    cases h.mediaType with
    | none => simp
    | some s => simp
  obtain ⟨s, hs⟩ : ∃ s, m.2 = quoted s := by
    simp only [members, List.mem_append, List.mem_cons, List.not_mem_nil, or_false] at hm
    obtain (rfl | rfl) | hm := hm
    · exact ⟨_, rfl⟩
    · exact ⟨_, rfl⟩
    · exact hkind m hm
  rw [octets, hs]
  exact .text (isText_quoted s)

/-- Every header is read back. -/
theorem read_write (h : Header) : read h.write = .ok h :=
  read_of_toldBy h.isObject_write h.toldBy_members

/-- No header is read from an object that tells any of it twice. -/
theorem exists_error_of_twice (hobject : IsObject ms bs) {name : String}
    (hname : name ∈ ["alg", "kid", "typ"]) (htwice : 2 ≤ (ms.map Prod.fst).count name) :
    ∃ e, read bs = .error e := by
  obtain ⟨f, hf, rfl⟩ : ∃ f ∈ record.fields, f.name = name := by
    simpa [record, eq_comm] using hname
  obtain ⟨e, he⟩ := lawful_record.exists_error_of_twice hobject hf htwice
  refine ⟨e, ?_⟩
  rw [read, he]
  rfl

end Header

/-! ### Claims -/

namespace Claims

/-- An object with members tells claims: each of the three names is there once, with a value
that is such. -/
structure ToldBy (c : Claims) (ms : List (String × Bytes)) : Prop where
  subject : Tells ms "sub" (IsText c.subject)
  issuedAt : Tells ms "iat" (IsInteger c.issuedAt)
  expiresAt : Tells ms "exp" (IsInteger c.expiresAt)
  issuedBounds : -2 ^ 63 ≤ c.issuedAt ∧ c.issuedAt < 2 ^ 63
  expiresBounds : -2 ^ 63 ≤ c.expiresAt ∧ c.expiresAt < 2 ^ 63

/-- What was read of claims when the members with some names were. -/
def drawn (c : Claims) (seen : List String) : Draft where
  subject := if "sub" ∈ seen then some c.subject else none
  issuedAt := if "iat" ∈ seen then some c.issuedAt else none
  expiresAt := if "exp" ∈ seen then some c.expiresAt else none

theorem lawful_record : record.Lawful := by
  refine .of_sets (by decide) fun f hf => ?_
  -- A field that is given stays so, whichever field is set.
  have hkeeps : ∀ d d' : Draft, (d.subject.isSome → d'.subject.isSome) →
      (d.issuedAt.isSome → d'.issuedAt.isSome) → (d.expiresAt.isSome → d'.expiresAt.isSome) →
      ∀ g ∈ record.fields, g.given d = true → g.given d' = true := by
    intro d d' hsub hiat hexp g hg
    simp only [record, List.mem_cons, List.not_mem_nil, or_false] at hg
    obtain rfl | rfl | rfl := hg
    · exact hsub
    · exact hiat
    · exact hexp
  simp only [record, List.mem_cons, List.not_mem_nil, or_false] at hf
  obtain rfl | rfl | rfl := hf
  · let into (d : Draft) (s : String) : Draft := { d with subject := some s }
    exact ⟨String, text, into, fun _ _ => rfl, takesValues_text, fun _ _ => rfl,
      fun g hg d s => hkeeps d (into d s) (fun _ => rfl) id id g hg⟩
  · let into (d : Draft) (n : Int) : Draft := { d with issuedAt := some n }
    exact ⟨Int, integer, into, fun _ _ => rfl, takesValues_integer, fun _ _ => rfl,
      fun g hg d n => hkeeps d (into d n) id (fun _ => rfl) id g hg⟩
  · let into (d : Draft) (n : Int) : Draft := { d with expiresAt := some n }
    exact ⟨Int, integer, into, fun _ _ => rfl, takesValues_integer, fun _ _ => rfl,
      fun g hg d n => hkeeps d (into d n) id id (fun _ => rfl) g hg⟩

theorem find?_eq_none {name : String} (hsub : name ≠ "sub") (hiat : name ≠ "iat")
    (hexp : name ≠ "exp") : record.fields.find? (·.name == name) = none := by
  simp [record, hsub.symm, hiat.symm, hexp.symm]

variable {c : Claims} {ms : List (String × Bytes)} {bs : Bytes}

theorem ToldBy.draws (h : c.ToldBy ms) {m : String × Bytes} (hm : m ∈ ms) :
    record.Draws c.drawn m.1 m.2 := by
  obtain ⟨name, value⟩ := m
  by_cases hsub : name = "sub"
  · subst hsub
    refine .of_field rfl (fun seen hseen => by simp [drawn, hseen]) ?_
    intro seen blank rest hblank _
    have hread : text (blank ++ (value ++ rest)) = .ok (c.subject, rest) :=
      textAs_append (h.subject.of_mem hm) hblank
    simp [hread, drawn, bind, Except.bind, pure, Except.pure]
  by_cases hiat : name = "iat"
  · subst hiat
    refine .of_field rfl (fun seen hseen => by simp [drawn, hseen]) ?_
    intro seen blank rest hblank hrest
    have hread :=
      integer_append (h.issuedAt.of_mem hm) h.issuedBounds.1 h.issuedBounds.2 hblank hrest
    simp [hread, drawn, bind, Except.bind, pure, Except.pure]
  by_cases hexp : name = "exp"
  · subst hexp
    refine .of_field rfl (fun seen hseen => by simp [drawn, hseen]) ?_
    intro seen blank rest hblank hrest
    have hread :=
      integer_append (h.expiresAt.of_mem hm) h.expiresBounds.1 h.expiresBounds.2 hblank hrest
    simp [hread, drawn, bind, Except.bind, pure, Except.pure]
  · refine .of_unknown (find?_eq_none hsub hiat hexp) fun seen => ?_
    simp [drawn, Ne.symm hsub, Ne.symm hiat, Ne.symm hexp]

/-- Claims are read from every object that tells them. -/
theorem read_of_toldBy (hobject : IsObject ms bs) (h : c.ToldBy ms) : read bs = .ok c := by
  have hdrawn : c.drawn (ms.map Prod.fst).reverse =
      ⟨some c.subject, some c.issuedAt, some c.expiresAt⟩ := by
    rw [drawn, if_pos h.subject.mem_names, if_pos h.issuedAt.mem_names,
      if_pos h.expiresAt.mem_names]
  have honce : ∀ f ∈ record.fields, (ms.map Prod.fst).count f.name ≤ 1 := by
    intro f hf
    simp only [record, List.mem_cons, List.not_mem_nil, or_false] at hf
    obtain rfl | rfl | rfl := hf
    · exact h.subject.count_eq.le
    · exact h.issuedAt.count_eq.le
    · exact h.expiresAt.count_eq.le
  have hall := Record.readAll_eq_ok hobject (fun m hm => h.draws hm) honce rfl (by rw [hdrawn]; rfl)
  rw [read, hall, hdrawn]
  rfl

/-- Written claims are told by the object that they are written as. -/
theorem toldBy_members (hissued : -2 ^ 63 ≤ c.issuedAt ∧ c.issuedAt < 2 ^ 63)
    (hexpires : -2 ^ 63 ≤ c.expiresAt ∧ c.expiresAt < 2 ^ 63) :
    c.ToldBy (c.members.map octets) where
  subject := ⟨_, rfl, isText_quoted c.subject⟩
  issuedAt := ⟨_, rfl, isInteger_written c.issuedAt⟩
  expiresAt := ⟨_, rfl, isInteger_written c.expiresAt⟩
  issuedBounds := hissued
  expiresBounds := hexpires

theorem isObject_write (c : Claims) : IsObject (c.members.map octets) c.write := by
  refine isObject_compact (List.cons_ne_nil _ _) fun m hm => ?_
  simp only [members, List.mem_cons, List.not_mem_nil, or_false] at hm
  obtain rfl | rfl | rfl := hm
  · exact .text (isText_quoted c.subject)
  · exact .number (isInteger_written c.issuedAt).isNumber
  · exact .number (isInteger_written c.expiresAt).isNumber

/-- Claims are read back if their instants have 64 binary digits with a sign. -/
theorem read_write (hissued : -2 ^ 63 ≤ c.issuedAt ∧ c.issuedAt < 2 ^ 63)
    (hexpires : -2 ^ 63 ≤ c.expiresAt ∧ c.expiresAt < 2 ^ 63) : read c.write = .ok c :=
  read_of_toldBy c.isObject_write (toldBy_members hissued hexpires)

/-- Claims are not read from an object that tells one of them twice. -/
theorem exists_error_of_twice (hobject : IsObject ms bs) {name : String}
    (hname : name ∈ ["sub", "iat", "exp"]) (htwice : 2 ≤ (ms.map Prod.fst).count name) :
    ∃ e, read bs = .error e := by
  obtain ⟨f, hf, rfl⟩ : ∃ f ∈ record.fields, f.name = name := by
    simpa [record, eq_comm] using hname
  obtain ⟨e, he⟩ := lawful_record.exists_error_of_twice hobject hf htwice
  refine ⟨e, ?_⟩
  rw [read, he]
  rfl

end Claims

end TokenAuthority

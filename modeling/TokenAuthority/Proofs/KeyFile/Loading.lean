import TokenAuthority.Proofs.KeyFile.Store

/-!
# Loading from any key file

Whatever the key file has for content, a key is loaded from it only if it is one for the
algorithm, and all that is wrong with the content is found before the file is written. This is
so on every file system on which looking at a file changes nothing.
-/

namespace TokenAuthority

/-- The written halves of a pair are read back. Nothing is asked of a secret. -/
def KeyMaterial.FormsRead : KeyMaterial → Prop
  | .secret _ => True
  | .pair k p => PrivateKey.ofPkcs8? k.toPkcs8 = some k ∧ PublicKey.ofSpki? p.toSpki = some p

namespace KeyFile

variable {f : KeyFile} {a : Algorithm} {text : String} {c : Contents} {k : SigningKey}

/-! ### What a text tells -/

/-- A text tells a key for an algorithm if it is the document of one. -/
theorem exists_document_of_contents (h : contents a text = .ok (some c)) :
    ∃ d, KeyDocument.read text = .ok d ∧ Algorithm.ofName? d.algorithm = some a ∧
      d.keyId = c.keyId ∧ d.created = c.created ∧ d.material a = .ok c.material := by
  obtain ⟨d, hd, h⟩ := bind_eq_ok_iff.mp h
  refine ⟨d, mapError_eq_ok_iff.mp hd, ?_⟩
  cases hb : Algorithm.ofName? d.algorithm with
  | none =>
      rw [hb] at h
      cases h
  | some b =>
      rw [hb] at h
      dsimp only at h
      split_ifs at h with hba
      · obtain ⟨material, hmaterial, h⟩ := bind_eq_ok_iff.mp h
        cases h
        exact ⟨congrArg some hba, rfl, rfl, hmaterial⟩
      · cases h

/-- A text that tells no key for the algorithm is one for another. -/
theorem exists_other_of_contents (h : contents a text = .ok none) :
    ∃ d b, KeyDocument.read text = .ok d ∧ Algorithm.ofName? d.algorithm = some b ∧ b ≠ a := by
  obtain ⟨d, hd, h⟩ := bind_eq_ok_iff.mp h
  cases hb : Algorithm.ofName? d.algorithm with
  | none =>
      rw [hb] at h
      cases h
  | some b =>
      rw [hb] at h
      dsimp only at h
      split_ifs at h with hba
      · obtain ⟨material, hmaterial, h⟩ := bind_eq_ok_iff.mp h
        cases h
      · exact ⟨d, b, mapError_eq_ok_iff.mp hd, hb, hba⟩

theorem isSame_of_ofWritten {privateForm publicForm : Bytes} {key : PrivateKey}
    {publicKey : PublicKey}
    (h : KeyMaterial.ofWritten privateForm publicForm = .ok (.pair key publicKey)) :
    key.toPublic.isSame publicKey := by
  rw [KeyMaterial.ofWritten] at h
  split at h
  swap
  · cases h
  split at h
  swap
  · cases h
  split_ifs at h with hhalves
  cases h
  exact hhalves

/-- The halves of a pair belong together when they come from a text. -/
theorem readsBack_of_contents (h : contents a text = .ok (some c)) (hforms : c.material.FormsRead) :
    c.material.ReadsBack := by
  obtain ⟨d, -, -, -, -, hmaterial⟩ := exists_document_of_contents h
  rw [KeyDocument.material] at hmaterial
  generalize c.material = material at hmaterial hforms ⊢
  cases material with
  | secret octets => exact True.intro
  | pair key publicKey =>
      cases hfamily : a.family with
      | symmetric =>
          rw [hfamily] at hmaterial
          obtain ⟨octets, -, hmaterial⟩ := bind_eq_ok_iff.mp hmaterial
          cases hmaterial
      | asymmetric =>
          rw [hfamily] at hmaterial
          obtain ⟨privateForm, -, hmaterial⟩ := bind_eq_ok_iff.mp hmaterial
          obtain ⟨publicForm, -, hmaterial⟩ := bind_eq_ok_iff.mp hmaterial
          exact ⟨hforms.1, hforms.2, isSame_of_ofWritten (mapError_eq_ok_iff.mp hmaterial)⟩

theorem onClock_of_contents (h : contents a text = .ok (some c)) (now : Moment) :
    (c.created.getD now).OnClock := by
  obtain ⟨d, hd, -, -, hcreated, -⟩ := exists_document_of_contents h
  cases hc : c.created with
  | none => exact Or.inl now.nanos_lt_second
  | some t => exact KeyDocument.onClock_of_read hd t (hcreated.trans hc)

theorem suits_of_ofParts {id : String} {created : Instant} {material : KeyMaterial}
    (h : SigningKey.ofParts id a created material = .ok k) : material.checkSuits a = .ok () := by
  obtain ⟨-, rfl, -, rfl⟩ := SigningKey.parts_of_ofParts h
  exact k.suits

/-! ### All that a load can come to -/

section

variable {σ β : Type} {s : Surroundings (StateM σ)} {fs : FileSystem (StateM σ)} {view : σ → β}
  {w w' : σ}

/-- Looking at a file changes nothing. -/
def Looks (fs : FileSystem (StateM σ)) : Prop :=
  ∀ path w, ((fs.isPresent path).run w).2 = w ∧ ((fs.read path).run w).2 = w

/-- The key file is there and has a text. -/
def HasText (fs : FileSystem (StateM σ)) (f : KeyFile) (w : σ) (text : String) : Prop :=
  ((fs.isPresent f.path).run w).1 = true ∧
    ∃ bs, ((fs.read f.path).run w).1 = .ok bs ∧ Utf8.decode? bs = some text

/-- All that a load can come to. Nothing is written unless the text has a key for the
algorithm and does not name it; what is seen of the state then changes no sooner. -/
inductive Loading (s : Surroundings (StateM σ)) (fs : FileSystem (StateM σ)) (view : σ → β)
    (f : KeyFile) (a : Algorithm) (w : σ) : Except AuthError (Option SigningKey) → σ → Prop
  | absent (nothing : ((fs.isPresent f.path).run w).1 = false) :
      Loading s fs view f a w (.ok none) w
  | unreadable (why : FileError) (there : ((fs.isPresent f.path).run w).1 = true) :
      Loading s fs view f a w (.error (.configuration (.cannotRead f.path why))) w
  | corrupt {text : String} {why : Corruption} (told : HasText fs f w text)
      (wrong : contents a text = .error why) :
      Loading s fs view f a w (.error (corrupt why)) w
  | other {text : String} (told : HasText fs f w text) (foreign : contents a text = .ok none) :
      Loading s fs view f a w (.ok none) w
  | unsuited {text : String} {c : Contents} {why : KeyError} {w' : σ}
      (told : HasText fs f w text) (valid : contents a text = .ok (some c))
      (unfit : c.material.checkSuits a = .error why) (same : view w' = view w) :
      Loading s fs view f a w (.error (KeyFile.corrupt (.unsuited why))) w'
  | found {text : String} {c : Contents} {k : SigningKey} {w' : σ}
      (told : HasText fs f w text) (valid : contents a text = .ok (some c))
      (made : SigningKey.ofParts k.id a (c.created.getD (s.now.run w).1) c.material = .ok k)
      (named : c.keyId = some k.id) (same : view w' = view w) :
      Loading s fs view f a w (.ok (some k)) w'
  | renamed {text : String} {c : Contents} {k : SigningKey} {w₁ w' : σ}
      (told : HasText fs f w text) (valid : contents a text = .ok (some c))
      (made : SigningKey.ofParts k.id a (c.created.getD (s.now.run w).1) c.material = .ok k)
      (unnamed : c.keyId = none) (same : view w₁ = view w)
      (kept : (f.activate fs k).run w₁ = (.ok (), w')) :
      Loading s fs view f a w (.ok (some k)) w'
  | unkept {text : String} {c : Contents} {k : SigningKey} {w₁ w' : σ} {e : AuthError}
      (told : HasText fs f w text) (valid : contents a text = .ok (some c))
      (made : SigningKey.ofParts k.id a (c.created.getD (s.now.run w).1) c.material = .ok k)
      (unnamed : c.keyId = none) (same : view w₁ = view w)
      (failed : (f.activate fs k).run w₁ = (.error e, w')) :
      Loading s fs view f a w (.error e) w'

/-- The key is made of what the text tells, and nothing is written meanwhile. -/
theorem exists_run_keyOf (hs : s.Leaves view) (a : Algorithm) (c : Contents) (w : σ) :
    ∃ id w', (keyOf s a c).run w =
        ((SigningKey.ofParts id a (c.created.getD (s.now.run w).1) c.material).mapError
          fun e => corrupt (.unsuited e), w') ∧
      (∀ id' ∈ c.keyId, id = id') ∧ view w' = view w := by
  have hnow := hs.1 w
  rw [keyOf, StateT.run_bind]
  cases hid : c.keyId with
  | some id =>
      refine ⟨id, (s.now.run w).2, rfl, ?_, hnow⟩
      rintro id' ⟨⟩
      rfl
  | none =>
      have hdraw := hs.2 Uuid.randomSize (s.now.run w).2
      exact ⟨_, ((s.draw Uuid.randomSize).run (s.now.run w).2).2, rfl, by simp, hdraw.trans hnow⟩

theorem run_isPresent_of_looks (hfs : Looks fs) {path : String} {there : Bool}
    (h : ((fs.isPresent path).run w).1 = there) : (fs.isPresent path).run w = (there, w) :=
  Prod.ext h (hfs path w).1

theorem run_read_of_looks (hfs : Looks fs) {path : String} {content : Except FileError Bytes}
    (h : ((fs.read path).run w).1 = content) : (fs.read path).run w = (content, w) :=
  Prod.ext h (hfs path w).2

/-- A file that is there has a text, or nothing is loaded from it. -/
theorem hasText_or_run_load (hfs : Looks fs) (s : Surroundings (StateM σ)) (a : Algorithm)
    (hthere : ((fs.isPresent f.path).run w).1 = true) :
    (∃ text, HasText fs f w text) ∨
      ∃ why, (f.load s fs a).run w = (.error (.configuration (.cannotRead f.path why)), w) := by
  have hpresent := run_isPresent_of_looks hfs hthere
  rw [load, run_bind_of_run_eq hpresent, Bool.not_true, if_neg Bool.false_ne_true]
  cases hbs : ((fs.read f.path).run w).1 with
  | error why =>
      right
      refine ⟨why, ?_⟩
      rw [StateT.run_bind, FileSystem.readText, run_bind_of_run_eq (run_read_of_looks hfs hbs)]
      rfl
  | ok bs =>
      cases htext : Utf8.decode? bs with
      | none =>
          right
          refine ⟨.notText, ?_⟩
          rw [StateT.run_bind, FileSystem.readText, run_bind_of_run_eq (run_read_of_looks hfs hbs)]
          dsimp only
          rw [htext]
          rfl
      | some text => exact Or.inl ⟨text, hthere, bs, hbs, htext⟩

theorem run_load_of_hasText (hfs : Looks fs) (s : Surroundings (StateM σ))
    (h : HasText fs f w text) (a : Algorithm) :
    (f.load s fs a).run w =
      match contents a text with
      | .error why => (.error (corrupt why), w)
      | .ok none => (.ok none, w)
      | .ok (some c) =>
        match (keyOf s a c).run w with
        | (.error e, w₁) => (.error e, w₁)
        | (.ok k, w₁) =>
          if c.keyId.isSome then (.ok (some k), w₁)
          else
            match (f.activate fs k).run w₁ with
            | (.ok (), w₂) => (.ok (some k), w₂)
            | (.error e, w₂) => (.error e, w₂) := by
  obtain ⟨hthere, bs, hbs, htext⟩ := h
  rw [load, run_bind_of_run_eq (run_isPresent_of_looks hfs hthere), Bool.not_true,
    if_neg Bool.false_ne_true,
    run_bind_of_run_eq (run_readText_of_read (run_read_of_looks hfs hbs) htext)]
  dsimp only
  cases contents a text with
  | error why => rfl
  | ok c? =>
      cases c? with
      | none => rfl
      | some c =>
          dsimp only
          rw [StateT.run_bind]
          obtain ⟨k?, w₁⟩ := (keyOf s a c).run w
          cases k? with
          | error e => rfl
          | ok k =>
              change StateT.run (if c.keyId.isSome then _ else _) w₁ = _
              split_ifs
              · rfl
              · rw [StateT.run_bind]
                dsimp only
                obtain ⟨kept, w₂⟩ := (f.activate fs k).run w₁
                cases kept <;> rfl

theorem loading_of_run (hfs : Looks fs) (hs : s.Leaves view)
    {answer : Except AuthError (Option SigningKey)}
    (h : (f.load s fs a).run w = (answer, w')) : Loading s fs view f a w answer w' := by
  cases hthere : ((fs.isPresent f.path).run w).1 with
  | false =>
      rw [run_load_of_not_isPresent s (run_isPresent_of_looks hfs hthere)] at h
      cases h
      exact .absent hthere
  | true =>
      obtain ⟨text, htext⟩ | ⟨why, hrun⟩ := hasText_or_run_load hfs s a hthere
      swap
      · rw [hrun] at h
        cases h
        exact .unreadable why hthere
      rw [run_load_of_hasText hfs s htext] at h
      cases hcontents : contents a text with
      | error why =>
          rw [hcontents] at h
          cases h
          exact .corrupt htext hcontents
      | ok c? =>
          rw [hcontents] at h
          cases c? with
          | none =>
              cases h
              exact .other htext hcontents
          | some c =>
              obtain ⟨id, w₁, hrun, hid, hsame⟩ := exists_run_keyOf hs a c w
              dsimp only at h
              rw [hrun] at h
              cases hmade : SigningKey.ofParts id a (c.created.getD (s.now.run w).1)
                  c.material with
              | error why =>
                  rw [hmade] at h
                  cases h
                  exact .unsuited htext hcontents (SigningKey.ofParts_eq_error_iff.mp hmade) hsame
              | ok k =>
                  obtain rfl := (SigningKey.parts_of_ofParts hmade).1
                  -- All that is wrong with the text is found; only a new name is written.
                  rw [hmade] at h
                  dsimp only [Except.mapError] at h
                  cases hkey : c.keyId with
                  | some id =>
                      rw [hkey] at h
                      cases h
                      rw [← hid id (by rw [hkey]; rfl)] at hkey
                      exact .found htext hcontents hmade hkey hsame
                  | none =>
                      rw [hkey] at h
                      cases hact : (f.activate fs k).run w₁ with
                      | mk kept w₂ =>
                          rw [hact] at h
                          cases kept with
                          | error e =>
                              cases h
                              exact .unkept htext hcontents hmade hkey hsame hact
                          | ok _ =>
                              cases h
                              exact .renamed htext hcontents hmade hkey hsame hact

/-- Wherever a key is named by the file, loading it again gives the same key. -/
theorem exists_run_load_of_named (hfs : Looks fs) (hs : s.Leaves view) (htext : HasText fs f w text)
    (hvalid : contents a text = .ok (some c)) {id : String} (hid : c.keyId = some id)
    (hsuits : c.material.checkSuits a = .ok ()) :
    ∃ k w₁, (f.load s fs a).run w = (.ok (some k), w₁) ∧ k.id = id ∧
      k.algorithm = a ∧ k.material = c.material ∧ view w₁ = view w := by
  obtain ⟨id', w₁, hrun, hid', hsame⟩ := exists_run_keyOf hs a c w
  cases hmade : SigningKey.ofParts id' a (c.created.getD (s.now.run w).1) c.material with
  | error e =>
      rw [SigningKey.ofParts_eq_error_iff, hsuits] at hmade
      cases hmade
  | ok k =>
      obtain ⟨hkid, hka, -, hkmaterial⟩ := SigningKey.parts_of_ofParts hmade
      refine ⟨k, w₁, ?_, hkid.trans (hid' id (by rw [hid]; rfl)), hka, hkmaterial, hsame⟩
      rw [run_load_of_hasText hfs s htext, hvalid]
      dsimp only
      rw [hrun, hmade]
      dsimp only [Except.mapError]
      rw [hid]
      rfl

end

/-! ### On a machine -/

theorem looks_machine : Looks Machine.fileSystem := fun _ _ => ⟨rfl, rfl⟩

theorem leaves_of_leavesFiles {s : Surroundings Machine.Act} (hs : s.LeavesFiles) :
    s.Leaves Machine.layout :=
  ⟨fun m => Prod.ext (hs.1 m).1 (hs.1 m).2, fun n m => Prod.ext (hs.2 n m).1 (hs.2 n m).2⟩

end KeyFile

end TokenAuthority

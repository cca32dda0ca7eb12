import TokenAuthority.KeyFile.Store
import TokenAuthority.Proofs.Except
import TokenAuthority.Proofs.KeyMaterial
import TokenAuthority.Proofs.Text.Base64
import TokenAuthority.Proofs.Time.Rfc3339
import TokenAuthority.Proofs.Toml.Written

/-!
# Reading back key documents

A document is read back from its text, whichever of its entries it has, and a key from its
document: the identifier and the instant as they were, a secret octet for octet, and a key
pair from the written forms of its halves.
-/

namespace TokenAuthority

namespace KeyDocument

/-! ### Entries -/

/-- An entry that may be missing. -/
def optional (key : String) (value : Option String) : List (String × String) :=
  (value.map fun v => (key, v)).toList

/-- The entries of a document, in the order in which they are written. -/
def entries (d : KeyDocument) : List (String × String) :=
  ("algorithm", d.algorithm) :: (optional "format" d.form ++ optional "key_id" d.keyId ++
    optional "created_at" (d.created.map Rfc3339.writeShort) ++ optional "key" d.secret ++
    optional "private_key" d.privateHalf ++ optional "public_key" d.publicHalf)

theorem optionalEntry_eq (key : String) (value : Option String) :
    optionalEntry key value = Toml.writeEntries (optional key value) := by
  cases value with
  | none => rfl
  | some v => exact (List.append_nil _).symm

theorem write_eq (d : KeyDocument) : d.write = String.ofList (Toml.writeEntries d.entries) := by
  simp only [write, entries, optionalEntry_eq, Toml.writeEntries, List.flatMap_cons,
    List.flatMap_append, List.append_assoc]

/-- The keys of all entries. -/
def names : List String :=
  ["algorithm", "format", "key_id", "created_at", "key", "private_key", "public_key"]

theorem optional_sublist (key : String) (value : Option String) :
    ((optional key value).map Prod.fst).Sublist [key] := by
  cases value with
  | none => exact List.nil_sublist _
  | some v => exact List.Sublist.refl _

theorem keys_sublist (d : KeyDocument) : (d.entries.map Prod.fst).Sublist names := by
  rw [entries, List.map_cons]
  simp only [List.map_append]
  refine List.Sublist.cons_cons _ ?_
  exact (((((optional_sublist _ _).append (optional_sublist _ _)).append
    (optional_sublist _ _)).append (optional_sublist _ _)).append (optional_sublist _ _)).append
    (optional_sublist _ _)

theorem isBare_of_mem {d : KeyDocument} {e : String × String} (he : e ∈ d.entries) :
    Toml.IsBare e.1 := by
  have hnames : ∀ name ∈ names, Toml.IsBare name := by decide
  exact hnames e.1 ((keys_sublist d).mem (List.mem_map_of_mem he))

/-! ### Reading -/

theorem ofEntries_append {draft draft' draft'' : Draft} {first second : Toml.Entries}
    (h : record.ofEntries draft first = .ok draft')
    (h' : record.ofEntries draft' second = .ok draft'') :
    record.ofEntries draft (first ++ second) = .ok draft'' := by
  rw [Toml.Record.ofEntries, List.foldlM_append]
  exact bind_eq_ok_iff.mpr ⟨draft', h, h'⟩

/-- The entries of a table with texts. -/
def items (entries : List (String × String)) : Toml.Entries :=
  entries.map fun e => (e.1, .text e.2)

/-- An entry that may be missing is read into its field. -/
theorem ofEntries_optional {key : String} {f : Toml.Field Draft}
    (hf : record.fields.find? (·.name == key) = some f) {value : Option String}
    {draft draft' : Draft}
    (hnone : value = none → draft' = draft)
    (hsome : ∀ v, value = some v → f.read draft (.text v) = .ok draft') :
    record.ofEntries draft (items (optional key value)) = .ok draft' := by
  cases value with
  | none =>
      rw [hnone rfl]
      rfl
  | some v =>
      have hread : record.ofEntries draft (items (optional key (some v))) =
          record.entry draft (key, .text v) >>= pure := rfl
      rw [hread, Toml.Record.entry, hf]
      dsimp only
      rw [hsome v rfl]
      rfl

theorem instantOf_writeShort {t : Instant} (h : t.OnClock) :
    instantOf (.text (Rfc3339.writeShort t)) = .ok t := by
  have hread := Rfc3339.read?_writeShort h
  simp only [instantOf, Toml.Item.textAs, bind, Except.bind, hread]
  rfl

/-- All entries are read into their fields. -/
theorem ofEntries_entries (d : KeyDocument) (h : ∀ t ∈ d.created, t.OnClock) :
    record.ofEntries {} (items d.entries) =
      .ok ⟨some d.algorithm, d.form, d.keyId, d.created, d.secret, d.privateHalf,
        d.publicHalf⟩ := by
  obtain ⟨algorithm, form, keyId, created, secret, privateHalf, publicHalf⟩ := d
  have hform : record.ofEntries ⟨some algorithm, none, none, none, none, none, none⟩
      (items (optional "format" form)) =
        .ok ⟨some algorithm, form, none, none, none, none, none⟩ :=
    ofEntries_optional rfl (fun h => by rw [h]) fun v h => by rw [h]; rfl
  have hid : record.ofEntries ⟨some algorithm, form, none, none, none, none, none⟩
      (items (optional "key_id" keyId)) =
        .ok ⟨some algorithm, form, keyId, none, none, none, none⟩ :=
    ofEntries_optional rfl (fun h => by rw [h]) fun v h => by rw [h]; rfl
  have hcreated : record.ofEntries ⟨some algorithm, form, keyId, none, none, none, none⟩
      (items (optional "created_at" (created.map Rfc3339.writeShort))) =
        .ok ⟨some algorithm, form, keyId, created, none, none, none⟩ := by
    refine ofEntries_optional rfl (fun hnone => ?_) fun v hv => ?_
    · rw [Option.map_eq_none_iff.mp hnone]
    · obtain ⟨t, ht, rfl⟩ := Option.map_eq_some_iff.mp hv
      simp only [instantOf_writeShort (h t ht), bind, Except.bind, ht]
      rfl
  have hsecret : record.ofEntries ⟨some algorithm, form, keyId, created, none, none, none⟩
      (items (optional "key" secret)) =
        .ok ⟨some algorithm, form, keyId, created, secret, none, none⟩ :=
    ofEntries_optional rfl (fun h => by rw [h]) fun v h => by rw [h]; rfl
  have hprivate : record.ofEntries ⟨some algorithm, form, keyId, created, secret, none, none⟩
      (items (optional "private_key" privateHalf)) =
        .ok ⟨some algorithm, form, keyId, created, secret, privateHalf, none⟩ :=
    ofEntries_optional rfl (fun h => by rw [h]) fun v h => by rw [h]; rfl
  have hpublic : record.ofEntries ⟨some algorithm, form, keyId, created, secret, privateHalf, none⟩
      (items (optional "public_key" publicHalf)) =
        .ok ⟨some algorithm, form, keyId, created, secret, privateHalf, publicHalf⟩ :=
    ofEntries_optional rfl (fun h => by rw [h]) fun v h => by rw [h]; rfl
  have hothers := ofEntries_append (ofEntries_append (ofEntries_append (ofEntries_append
    (ofEntries_append hform hid) hcreated) hsecret) hprivate) hpublic
  simp only [items, ← List.map_append] at hothers
  exact hothers

/-- Every document is read back from its text. -/
theorem read_write (d : KeyDocument) (h : ∀ t ∈ d.created, t.OnClock) :
    KeyDocument.read d.write = .ok d := by
  have hentries := Toml.read_writeEntries (fun e he => isBare_of_mem (d := d) he)
    ((keys_sublist d).nodup (by decide))
  rw [write_eq, KeyDocument.read, hentries]
  change record.ofEntries {} (items d.entries) >>= _ = _
  rw [ofEntries_entries d h]
  rfl

/-- What no entry changes is as it was before all of them. -/
theorem invariant_of_ofEntries {P : Draft → Prop}
    (hentry : ∀ draft draft' e, record.entry draft e = .ok draft' → P draft → P draft')
    {entries : Toml.Entries} {draft draft' : Draft}
    (h : record.ofEntries draft entries = .ok draft') (hdraft : P draft) : P draft' := by
  induction entries generalizing draft with
  | nil =>
      cases h
      exact hdraft
  | cons e entries ih =>
      rw [Toml.Record.ofEntries, List.foldlM_cons] at h
      obtain ⟨next, hnext, h⟩ := bind_eq_ok_iff.mp h
      exact ih h (hentry draft next e hnext hdraft)

theorem onClock_of_instantOf {item : Toml.Item} {t : Instant} (h : instantOf item = .ok t) :
    t.OnClock := by
  obtain ⟨text, -, h⟩ := bind_eq_ok_iff.mp h
  cases hread : Rfc3339.read? text with
  | none =>
      rw [hread] at h
      cases h
  | some t' =>
      rw [hread] at h
      cases h
      exact Rfc3339.onClock_of_read? hread

theorem onClock_of_entry (draft draft' : Draft) (e : String × Toml.Item)
    (h : record.entry draft e = .ok draft') (hdraft : ∀ t ∈ draft.created, t.OnClock) :
    ∀ t ∈ draft'.created, t.OnClock := by
  unfold Toml.Record.entry at h
  cases hf : record.fields.find? (·.name == e.1) with
  | none =>
      rw [hf] at h
      cases h
      exact hdraft
  | some f =>
      rw [hf] at h
      have hmem := List.mem_of_find?_eq_some hf
      simp only [record, List.mem_cons, List.not_mem_nil, or_false] at hmem
      -- Only one entry is an instant, and the others leave it alone.
      obtain rfl | rfl | rfl | rfl | rfl | rfl | rfl := hmem
      case inr.inr.inr.inl =>
        obtain ⟨t, ht, h⟩ := bind_eq_ok_iff.mp h
        cases h
        rintro t' ⟨⟩
        exact onClock_of_instantOf ht
      all_goals
        obtain ⟨text, -, h⟩ := bind_eq_ok_iff.mp h
        cases h
        exact hdraft

/-- An instant that a document tells is one that can be written again. -/
theorem onClock_of_read {text : String} {d : KeyDocument} (h : KeyDocument.read text = .ok d) :
    ∀ t ∈ d.created, t.OnClock := by
  obtain ⟨entries, -, h⟩ := bind_eq_ok_iff.mp h
  obtain ⟨draft, hdraft, h⟩ := bind_eq_ok_iff.mp h
  have hclock : ∀ t ∈ draft.created, t.OnClock :=
    invariant_of_ofEntries onClock_of_entry hdraft (by simp)
  cases ha : draft.algorithm with
  | none =>
      rw [ha] at h
      cases h
  | some a =>
      rw [ha] at h
      cases h
      exact hclock

/-! ### Keys -/

theorem octets_encodeText (name : String) (bs : Bytes) :
    octets name (some (Base64.standard.encodeText bs)) = .ok bs := by
  rw [octets, Base64.Code.lawful_standard.decode_encodeText]
  rfl

end KeyDocument

/-- The written halves of a pair are read back, and belong together. Nothing is asked of a
secret. -/
def KeyMaterial.ReadsBack : KeyMaterial → Prop
  | .secret _ => True
  | .pair k p => PrivateKey.ofPkcs8? k.toPkcs8 = some k ∧ PublicKey.ofSpki? p.toSpki = some p ∧
      k.toPublic.isSame p

theorem KeyMaterial.ofWritten_forms {k : PrivateKey} {p : PublicKey}
    (h : (KeyMaterial.pair k p).ReadsBack) :
    KeyMaterial.ofWritten k.toPkcs8 p.toSpki = .ok (.pair k p) := by
  obtain ⟨hprivate, hpublic, hhalves⟩ := h
  rw [ofWritten, hprivate, hpublic]
  dsimp only
  rw [if_pos hhalves]
  rfl

namespace KeyDocument

/-- The material of a key is read back from its document. -/
theorem material_ofKey {k : SigningKey} (h : k.material.ReadsBack) :
    (ofKey k).material k.algorithm = .ok k.material := by
  have hfamily := KeyMaterial.family_of_checkSuits k.suits
  rw [KeyDocument.material, hfamily]
  simp only [ofKey]
  generalize k.material = m at h
  cases m with
  | secret octets =>
      simp only [KeyMaterial.family, KeyMaterial.secret?, Option.map_some, octets_encodeText]
      rfl
  | pair privateKey publicKey =>
      simp only [KeyMaterial.family, KeyMaterial.privateForm?, KeyMaterial.publicForm?,
        Option.map_some, octets_encodeText, bind, Except.bind, KeyMaterial.ofWritten_forms h]
      rfl

end KeyDocument

namespace KeyFile

/-- The document of a key tells its parts for its algorithm, and nothing for another. -/
theorem contents_ofKey {k : SigningKey} (h : k.material.ReadsBack) (hcreated : k.created.OnClock)
    (a : Algorithm) :
    contents a (KeyDocument.ofKey k).write =
      .ok (if k.algorithm = a then some ⟨some k.id, some k.created, k.material⟩ else none) := by
  have hread := KeyDocument.read_write (KeyDocument.ofKey k) (by rintro t ⟨⟩; exact hcreated)
  have hname : Algorithm.ofName? (KeyDocument.ofKey k).algorithm = some k.algorithm :=
    Algorithm.ofName?_name k.algorithm
  rw [contents, hread]
  simp only [Except.mapError, bind, Except.bind, hname]
  by_cases ha : k.algorithm = a
  · subst ha
    rw [if_pos rfl, if_pos rfl, KeyDocument.material_ofKey h]
    rfl
  · rw [if_neg ha, if_neg ha]
    rfl

/-- The key of a document is the key that it was made of. -/
theorem ofParts_ofKey (k : SigningKey) :
    SigningKey.ofParts k.id k.algorithm k.created k.material = .ok k := by
  unfold SigningKey.ofParts
  split
  · rfl
  · rename_i e he
    rw [k.suits] at he
    cases he

end KeyFile

end TokenAuthority

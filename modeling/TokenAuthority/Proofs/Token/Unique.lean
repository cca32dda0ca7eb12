import TokenAuthority.Proofs.Text.Base64Strict
import TokenAuthority.Proofs.Token.RoundTrip
import TokenAuthority.Proofs.Token.Verification

/-!
# One text for a token

What is signed and the signature determine the text of a token: the signed octets are the
text up to the second dot, and the rest is the one way to write the signature. So a text
cannot be changed behind the second dot without another signature, and a key that is a
secret makes only one signature for what is signed.
-/

namespace TokenAuthority

namespace KeyMaterial

/-- A secret suits an algorithm with a shared secret, and a pair does not. -/
theorem exists_secret_of_suits {m : KeyMaterial} {a : Algorithm} (ha : a.isSymmetric)
    (h : m.checkSuits a = .ok ()) : ∃ octets, m = .secret octets := by
  have hfamily : m.family = .symmetric := (family_of_checkSuits h).symm.trans (beq_iff_eq.mp ha)
  cases m with
  | secret octets => exact ⟨octets, rfl⟩
  | pair k p => cases hfamily

/-- Under an algorithm with a shared secret there is one signature of a message. -/
theorem eq_of_verify {m : KeyMaterial} {a : Algorithm} (ha : a.isSymmetric)
    (hsuits : m.checkSuits a = .ok ()) {message s₁ s₂ : Bytes}
    (h₁ : m.verify a message s₁ = .ok true) (h₂ : m.verify a message s₂ = .ok true) :
    s₁ = s₂ := by
  obtain ⟨octets, rfl⟩ := exists_secret_of_suits ha hsuits
  rw [verify_secret hsuits, Except.ok.injEq, beq_iff_eq] at h₁ h₂
  rw [← h₁, ← h₂]

end KeyMaterial

namespace KeyRing

variable {r : KeyRing} {id : String} {k k' : SigningKey}

theorem Newest.unique (h : r.Newest id k) (h' : r.Newest id k') : k = k' := by
  rw [← find?_eq_some_iff_newest] at h h'
  rw [h] at h'
  exact Option.some.inj h'

end KeyRing

namespace Token

variable {data data' : String} {t t' : Token}

/-- A text is what is signed, a dot, and the signature in base 64. -/
theorem encode_of_spells (h : Spells data t) :
    Utf8.encode data = t.signed ++ 0x2E :: Base64.url.encode t.signature := by
  obtain ⟨first, second, third, hdata, -, -, -, -, hthird, hsigned⟩ := h
  have hdot : String.utf8EncodeChar '.' = [0x2E] := by decide
  have hlist : data = String.ofList (first ++ '.' :: (second ++ '.' :: third)) := by
    rw [← hdata, String.ofList_toList]
  rw [Base64.Code.encode_of_decode hthird, hsigned, hlist]
  simp only [Utf8.encode_ofList, List.flatMap_append, List.flatMap_cons, hdot,
    List.append_assoc, List.cons_append, List.nil_append]

theorem eq_of_signed (h : Spells data t) (h' : Spells data' t') (hsigned : t'.signed = t.signed)
    (hsignature : t'.signature = t.signature) : data' = data := by
  rw [← Utf8.encode_inj, encode_of_spells h, encode_of_spells h', hsigned, hsignature]

/-- The first two parts of a text tell the header and what is signed. -/
theorem eq_of_front (h : Spells data t) (h' : Spells data' t')
    (hfront : (Text.split '.' data'.toList).take 2 = (Text.split '.' data.toList).take 2) :
    t'.header = t.header ∧ t'.signed = t.signed := by
  obtain ⟨first, second, third, hdata, hdots, ⟨octets, hoctets, hheader⟩, -, -, -, hsigned⟩ := h
  obtain ⟨first', second', third', hdata', hdots', ⟨octets', hoctets', hheader'⟩, -, -, -,
    hsigned'⟩ := h'
  have hsplit := Text.split_eq_three_iff.mpr ⟨hdata, hdots⟩
  have hsplit' := Text.split_eq_three_iff.mpr ⟨hdata', hdots'⟩
  rw [hsplit, hsplit'] at hfront
  obtain ⟨rfl, rfl⟩ : first' = first ∧ second' = second := by simpa using hfront
  rw [hoctets, Except.ok.injEq] at hoctets'
  subst hoctets'
  rw [hheader, Except.ok.injEq] at hheader'
  exact ⟨hheader'.symm, by rw [hsigned, hsigned']⟩

/-- Of the texts with the same first two parts, a ring for an algorithm with a shared secret
accepts at most one. -/
theorem eq_of_verify {r : KeyRing} (hr : r.Homogeneous) (hsymmetric : r.algorithm.isSymmetric)
    {now now' : Instant} {subject subject' : String} (h : r.verify data now = .ok subject)
    (h' : r.verify data' now' = .ok subject')
    (hfront : (Text.split '.' data'.toList).take 2 = (Text.split '.' data.toList).take 2) :
    data' = data := by
  obtain ⟨t, k, hspells, hnewest, ⟨-, hverify⟩, -, -⟩ := KeyRing.verify_eq_ok_iff.mp h
  obtain ⟨t', k', hspells', hnewest', ⟨-, hverify'⟩, -, -⟩ := KeyRing.verify_eq_ok_iff.mp h'
  obtain ⟨hheader, hsigned⟩ := eq_of_front hspells hspells' hfront
  -- The same header names the same key, and that key is a secret.
  rw [hheader] at hnewest'
  obtain rfl := hnewest.unique hnewest'
  have hsecret : k.algorithm.isSymmetric := by
    rw [hr k hnewest.mem]
    exact hsymmetric
  rw [hsigned] at hverify'
  exact eq_of_signed hspells hspells' hsigned
    (KeyMaterial.eq_of_verify hsecret k.suits hverify' hverify)

/-- A text that is read consists of what is signed, a dot, and the signature in base 64. So
another text that is read tells something else to be signed or another signature, and no other
text with the same first two parts is accepted by a ring for an algorithm with a shared
secret that accepts this one. -/
theorem text_determined {data : String} {t : Token} (h : parse data = .ok t) :
    Utf8.encode data = t.signed ++ 0x2E :: Base64.url.encode t.signature ∧
    (∀ data' t', parse data' = .ok t' → data' ≠ data →
      t'.signed ≠ t.signed ∨ t'.signature ≠ t.signature) ∧
    ∀ {σ : Type} {s : Surroundings (StateM σ)} {store : KeyStore (StateM σ)} {r : KeyRing},
      store.LoadsOwn → KeyRing.Reached s store r → r.algorithm.isSymmetric →
      ∀ now subject, r.verify data now = .ok subject →
      ∀ data', (Text.split '.' data'.toList).take 2 = (Text.split '.' data.toList).take 2 →
      data' ≠ data → ∀ now' subject', r.verify data' now' ≠ .ok subject' := by
  have hspells := parse_eq_ok_iff.mp h
  refine ⟨encode_of_spells hspells, ?_, ?_⟩
  · intro data' t' h' hne
    by_contra hsame
    rw [not_or, not_not, not_not] at hsame
    exact hne (eq_of_signed hspells (parse_eq_ok_iff.mp h') hsame.1 hsame.2)
  · intro σ s store r hstore hr hsymmetric now subject haccepted data' hfront hne now' subject'
      haccepted'
    exact hne (eq_of_verify (hr.homogeneous hstore) hsymmetric haccepted haccepted' hfront)

/-- A token of a minute, and a ring with its key. -/
theorem text_determined_issued :
    ∃ (r : KeyRing) (token : IssuedToken),
      KeyRing.Reached Surroundings.still .inMemory r ∧ r.verify token.data .epoch = .ok "a" ∧
      ∀ data', (Text.split '.' data'.toList).take 2 = (Text.split '.' token.data.toList).take 2 →
        data' ≠ token.data → ∀ now' subject', r.verify data' now' ≠ .ok subject' := by
  have hempty : KeyRing.empty ⟨.hmac, .sha256⟩ 1 =
      .ok ⟨⟨.hmac, .sha256⟩, 1, [], by decide, by decide⟩ := rfl
  have hblank : KeyRing.Reached Surroundings.still KeyStore.inMemory _ := .empty hempty
  obtain ⟨r, k, hkeys, hk, hid, hsymmetric, hreached⟩ : ∃ (r : KeyRing) (k : SigningKey),
      r.keys = [k] ∧ k.material = .secret [1] ∧ k.id ≠ "" ∧ r.algorithm.isSymmetric ∧
        KeyRing.Reached Surroundings.still .inMemory r :=
    ⟨⟨⟨.hmac, .sha256⟩, 1, [⟨"k", ⟨.hmac, .sha256⟩, .epoch, .secret [1], rfl⟩], by decide,
      by decide⟩, _, rfl, rfl, by decide, rfl,
      hblank.step (.push ⟨"k", ⟨.hmac, .sha256⟩, .epoch, .secret [1], rfl⟩) ()⟩
  have hsuits := k.suits
  rw [hk] at hsuits
  obtain ⟨token, htoken⟩ : ∃ token, IssuedToken.issue k "a" .epoch
      ⟨60000000000, by decide, by decide⟩ = .ok token :=
    ⟨⟨_, .epoch, ⟨60, 0, by decide, by decide, by decide⟩⟩, IssuedToken.issue_eq_ok_iff.mpr
      ⟨by decide, _, by rw [hk]; exact KeyMaterial.sign_secret hsuits _, rfl, rfl, rfl⟩⟩
  obtain ⟨signature, hsign, -, hparse⟩ := IssuedToken.exists_parse_of_issue hid htoken
  generalize signedForm _ _ = signed at hsign hparse
  have hverify : k.material.verify k.algorithm signed signature = .ok true := by
    rw [hk] at hsign ⊢
    exact KeyMaterial.verify_of_sign_secret hsign
  have hunexpired : Instant.epoch.seconds < (IssuedToken.claims "a" .epoch
      ⟨60000000000, by decide, by decide⟩).expiresAt := by decide
  have haccepted : r.verify token.data .epoch = .ok "a" :=
    KeyRing.verify_eq_ok_iff.mpr ⟨_, k, parse_eq_ok_iff.mp hparse, ⟨[], [], hkeys, rfl, by simp⟩,
      ⟨rfl, hverify⟩, hunexpired, rfl⟩
  exact ⟨r, token, hreached, haccepted, (text_determined hparse).2.2
    KeyStore.loadsOwn_inMemory hreached hsymmetric .epoch "a" haccepted⟩

end Token

end TokenAuthority

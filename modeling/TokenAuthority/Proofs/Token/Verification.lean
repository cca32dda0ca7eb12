import TokenAuthority.Proofs.KeyRing.OwnKeys
import TokenAuthority.Proofs.Token.RoundTrip
import TokenAuthority.Proofs.Token.Spelling
import TokenAuthority.Token.Verify

/-!
# What verification decides

Each of the four questions has a condition of its own, and a token is refused for the first
that does not hold. So a refusal tells that everything asked before was in order: only a
text that spells no token is malformed, and only a token with a good signature expires.
-/

namespace TokenAuthority

namespace Token

/-- A token tells the algorithm of a key, and its signature is one of the key. -/
def SignedBy (t : Token) (k : SigningKey) : Prop :=
  t.header.algorithm = k.algorithm ∧
    k.material.verify k.algorithm t.signed t.signature = .ok true

theorem read_eq_ok_iff {data : String} {t : Token} : read data = .ok t ↔ Spells data t := by
  rw [read, mapError_eq_ok_iff, parse_eq_ok_iff]

theorem read_eq_error_iff {data : String} {e : Refusal} :
    read data = .error e ↔ ∃ why, parse data = .error why ∧ Refusal.malformed why = e := by
  rw [read, mapError_eq_error_iff]

theorem checkSignature_eq_ok_iff {t : Token} {k : SigningKey} {u : Unit} :
    t.checkSignature k = .ok u ↔ t.SignedBy k := by
  rw [checkSignature, SignedBy]
  cases k.material.verify k.algorithm t.signed t.signature with
  | error e => simp [Except.toOption]
  | ok valid => simp [Except.toOption]

theorem checkSignature_eq_error_iff {t : Token} {k : SigningKey} {e : Refusal} :
    t.checkSignature k = .error e ↔ ¬t.SignedBy k ∧ e = .badSignature := by
  rw [← checkSignature_eq_ok_iff (u := ()), checkSignature]
  split
  · simp
  · simp [eq_comm]

theorem checkExpiry_eq_ok_iff {t : Token} {now : Instant} {u : Unit} :
    t.checkExpiry now = .ok u ↔ now.seconds < t.claims.expiresAt := by
  rw [checkExpiry]
  by_cases h : now.seconds < t.claims.expiresAt
  · simp [h]
  · simp [if_neg h, Int.not_lt.mp h]

theorem checkExpiry_eq_error_iff {t : Token} {now : Instant} {e : Refusal} :
    t.checkExpiry now = .error e ↔ t.claims.expiresAt ≤ now.seconds ∧ e = .expired := by
  rw [checkExpiry]
  by_cases h : now.seconds < t.claims.expiresAt
  · simp [h, Int.not_le.mpr h]
  · simp [if_neg h, Int.not_lt.mp h, eq_comm]

end Token

namespace KeyRing

variable {r : KeyRing} {data : String} {now : Instant}

/-- A key of a ring is the newest with an identifier. -/
def Newest (r : KeyRing) (id : String) (k : SigningKey) : Prop :=
  ∃ newer older, r.keys = newer ++ k :: older ∧ k.id = id ∧ ∀ k' ∈ newer, k'.id ≠ id

theorem Newest.mem {id : String} {k : SigningKey} (h : r.Newest id k) : k ∈ r.keys := by
  obtain ⟨newer, older, hkeys, -⟩ := h
  rw [hkeys]
  exact List.mem_append_cons_self

theorem find?_eq_some_iff_newest {id : String} {k : SigningKey} :
    r.find? id = some k ↔ r.Newest id k := by
  rw [find?, List.find?_eq_some_iff_append]
  constructor
  · rintro ⟨hid, newer, older, hkeys, hnewer⟩
    refine ⟨newer, older, hkeys, eq_of_beq hid, ?_⟩
    intro k' hmem
    simpa using hnewer k' hmem
  · rintro ⟨newer, older, hkeys, hid, hnewer⟩
    refine ⟨beq_iff_eq.mpr hid, newer, older, hkeys, ?_⟩
    intro k' hmem
    simpa using hnewer k' hmem

theorem find?_eq_none_iff {id : String} : r.find? id = none ↔ ∀ k ∈ r.keys, k.id ≠ id := by
  rw [find?, List.find?_eq_none]
  simp

theorem keyOf_eq_ok_iff {t : Token} {k : SigningKey} :
    r.keyOf t = .ok k ↔ r.Newest t.header.keyId k := by
  rw [← find?_eq_some_iff_newest, keyOf]
  cases r.find? t.header.keyId with
  | none => simp
  | some k' => simp

theorem keyOf_eq_error_iff {t : Token} {e : Refusal} :
    r.keyOf t = .error e ↔
      (∀ k ∈ r.keys, k.id ≠ t.header.keyId) ∧ e = .unknownKey t.header.keyId := by
  rw [← find?_eq_none_iff, keyOf]
  cases r.find? t.header.keyId with
  | none => simp [eq_comm]
  | some k => simp

/-- A subject is told if all four questions have the right answer. -/
theorem verify_eq_ok_iff {subject : String} :
    r.verify data now = .ok subject ↔
      ∃ t k, Token.Spells data t ∧ r.Newest t.header.keyId k ∧ t.SignedBy k ∧
        now.seconds < t.claims.expiresAt ∧ t.claims.subject = subject := by
  simp only [verify, bind_eq_ok_iff, Token.read_eq_ok_iff, keyOf_eq_ok_iff,
    Token.checkSignature_eq_ok_iff, Token.checkExpiry_eq_ok_iff, pure, Except.pure,
    Except.ok.injEq]
  constructor
  · rintro ⟨t, hspells, k, hnewest, -, hsigned, -, hnow, hsubject⟩
    exact ⟨t, k, hspells, hnewest, hsigned, hnow, hsubject⟩
  · rintro ⟨t, k, hspells, hnewest, hsigned, hnow, hsubject⟩
    exact ⟨t, hspells, k, hnewest, (), hsigned, (), hnow, hsubject⟩

/-- A refusal tells which question is the first without the right answer. -/
theorem verify_eq_error_iff {e : Refusal} :
    r.verify data now = .error e ↔
      (∃ why, Token.parse data = .error why ∧ Refusal.malformed why = e) ∨
      ∃ t, Token.Spells data t ∧
        ((∀ k ∈ r.keys, k.id ≠ t.header.keyId) ∧ e = .unknownKey t.header.keyId ∨
          ∃ k, r.Newest t.header.keyId k ∧
            (¬t.SignedBy k ∧ e = .badSignature ∨
              t.SignedBy k ∧ t.claims.expiresAt ≤ now.seconds ∧ e = .expired)) := by
  simp only [verify, bind_eq_error_iff, Token.read_eq_ok_iff, Token.read_eq_error_iff,
    keyOf_eq_ok_iff, keyOf_eq_error_iff, Token.checkSignature_eq_ok_iff,
    Token.checkSignature_eq_error_iff, Token.checkExpiry_eq_ok_iff,
    Token.checkExpiry_eq_error_iff, pure, Except.pure, reduceCtorEq, and_false, exists_false,
    or_false, exists_const]

/-- What verification decides, for every ring that can be reached over a store that loads no
keys for other algorithms, every text and every instant. -/
theorem verify_decides {σ : Type} {s : Surroundings (StateM σ)} {store : KeyStore (StateM σ)}
    (hstore : store.LoadsOwn) (hr : Reached s store r) (data : String) (now : Instant) :
    (∀ subject, r.verify data now = .ok subject ↔
      ∃ t k, Token.Spells data t ∧ t.claims.subject = subject ∧ r.Newest t.header.keyId k ∧
        t.SignedBy k ∧ t.header.algorithm = r.algorithm ∧
        now.seconds < t.claims.expiresAt) ∧
    ((∃ why, r.verify data now = .error (.malformed why)) ↔ ∀ t, ¬Token.Spells data t) ∧
    (∀ id, r.verify data now = .error (.unknownKey id) ↔
      ∃ t, Token.Spells data t ∧ t.header.keyId = id ∧ ∀ k ∈ r.keys, k.id ≠ id) ∧
    (r.verify data now = .error .badSignature ↔
      ∃ t k, Token.Spells data t ∧ r.Newest t.header.keyId k ∧ ¬t.SignedBy k) ∧
    (r.verify data now = .error .expired ↔
      ∃ t k, Token.Spells data t ∧ r.Newest t.header.keyId k ∧ t.SignedBy k ∧
        t.claims.expiresAt ≤ now.seconds) := by
  refine ⟨?_, ?_, ?_, ?_, ?_⟩
  · intro subject
    rw [verify_eq_ok_iff]
    refine exists_congr fun t => exists_congr fun k => ?_
    constructor
    · rintro ⟨hspells, hnewest, hsigned, hnow, hsubject⟩
      have hmem := hnewest.mem
      refine ⟨hspells, hsubject, hnewest, hsigned, ?_, hnow⟩
      rw [hsigned.1]
      exact hr.homogeneous hstore k hmem
    · rintro ⟨hspells, hsubject, hnewest, hsigned, -, hnow⟩
      exact ⟨hspells, hnewest, hsigned, hnow, hsubject⟩
  · rw [← Token.exists_parse_eq_error_iff]
    simp [verify_eq_error_iff]
  · intro id
    have hunknown : r.verify data now = .error (.unknownKey id) ↔
        ∃ t, Token.Spells data t ∧ (∀ k ∈ r.keys, k.id ≠ t.header.keyId) ∧
          id = t.header.keyId := by
      simp [verify_eq_error_iff]
    rw [hunknown]
    refine exists_congr fun t => and_congr_right fun _ => ?_
    constructor
    · rintro ⟨hnone, rfl⟩
      exact ⟨rfl, hnone⟩
    · rintro ⟨rfl, hnone⟩
      exact ⟨hnone, rfl⟩
  · simp [verify_eq_error_iff]
  · simp [verify_eq_error_iff]

/-- A header, claims that last for a minute, and a signature are those of some text. -/
theorem exists_spells (id : String) (hid : id ≠ "") (sign : Bytes → Bytes) :
    ∃ data t, Token.Spells data t ∧ t.header = ⟨⟨.hmac, .sha256⟩, id, some "JWT"⟩ ∧
      t.claims = ⟨"frodo", 0, 60⟩ ∧ t.signature = sign t.signed := by
  obtain ⟨h, hh⟩ : ∃ h : Header, h = ⟨⟨.hmac, .sha256⟩, id, some "JWT"⟩ := ⟨_, rfl⟩
  obtain ⟨c, hc⟩ : ∃ c : Claims, c = ⟨"frodo", 0, 60⟩ := ⟨_, rfl⟩
  have hid' : h.keyId ≠ "" := by rwa [hh]
  have hissued : -2 ^ 63 ≤ c.issuedAt ∧ c.issuedAt < 2 ^ 63 := by rw [hc]; decide
  have hexpires : -2 ^ 63 ≤ c.expiresAt ∧ c.expiresAt < 2 ^ 63 := by rw [hc]; decide
  have hread := Token.parse_written hid' hissued hexpires (sign (Token.signedForm
    (Base64.url.encodeChars h.write) (Base64.url.encodeChars c.write)))
  have hspells := Token.parse_eq_ok_iff.mp hread
  generalize IssuedToken.text _ _ _ = data at hspells
  generalize Token.signedForm _ _ = signed at hspells
  exact ⟨data, _, hspells, hh, hc, rfl⟩

/-- A ring with one key, and a text for each answer. -/
theorem verify_decides_each :
    (KeyStore.inMemory : KeyStore (StateM Unit)).LoadsOwn ∧
      ∃ (r : KeyRing) (good foreign unsigned : String) (later : Instant),
        Reached Surroundings.still KeyStore.inMemory r ∧ r.keys.map SigningKey.id = ["a"] ∧
        (∃ why, r.verify "a.b" .epoch = .error (.malformed why)) ∧
        r.verify good .epoch = .ok "frodo" ∧ r.verify good later = .error .expired ∧
        r.verify foreign .epoch = .error (.unknownKey "b") ∧
        r.verify unsigned .epoch = .error .badSignature := by
  let k : SigningKey := ⟨"a", ⟨.hmac, .sha256⟩, .epoch, .secret [1], rfl⟩
  let later : Instant := ⟨60, 0, by decide, by decide, by decide⟩
  have hempty : empty ⟨.hmac, .sha256⟩ 1 =
      .ok ⟨⟨.hmac, .sha256⟩, 1, [], by decide, by decide⟩ := rfl
  have hblank : Reached Surroundings.still KeyStore.inMemory _ := .empty hempty
  have hreached := hblank.step (.push k) ()
  obtain ⟨r, hr, halgorithm, hkeys⟩ : ∃ r : KeyRing,
      Reached Surroundings.still KeyStore.inMemory r ∧ r.algorithm = ⟨.hmac, .sha256⟩ ∧
        r.keys = [k] := ⟨_, hreached, rfl, rfl⟩
  have hnewest : r.Newest "a" k := ⟨[], [], hkeys, rfl, by simp⟩
  have hverify : ∀ message signature, k.material.verify k.algorithm message signature =
      .ok (Digest.sha256.hmac [1] message == signature) :=
    fun message signature => KeyMaterial.verify_secret rfl message signature
  have hdecides := verify_decides KeyStore.loadsOwn_inMemory hr
  obtain ⟨good, t, hgood, hheader, hclaims, hsignature⟩ :=
    exists_spells "a" (by decide) (Digest.sha256.hmac [1])
  obtain ⟨foreign, t', hforeign, hheader', -⟩ := exists_spells "b" (by decide) id
  obtain ⟨unsigned, u, hunsigned, hheader'', -, hnone⟩ :=
    exists_spells "a" (by decide) fun _ => []
  have hnewest' : r.Newest t.header.keyId k := by rwa [hheader]
  have hsigned : t.SignedBy k := by
    refine ⟨by rw [hheader], ?_⟩
    rw [hverify, hsignature, beq_self_eq_true]
  refine ⟨KeyStore.loadsOwn_inMemory, r, good, foreign, unsigned, later, hr, ?_, ?_, ?_, ?_, ?_,
    ?_⟩
  · rw [hkeys]
    rfl
  · exact (hdecides "a.b" .epoch).2.1.mpr (Token.exists_parse_eq_error_iff.mp ⟨_, rfl⟩)
  · refine ((hdecides good .epoch).1 "frodo").mpr
      ⟨t, k, hgood, by rw [hclaims], hnewest', hsigned, ?_, ?_⟩
    · rw [hheader, halgorithm]
    · rw [hclaims]
      decide
  · refine (hdecides good later).2.2.2.2.mpr ⟨t, k, hgood, hnewest', hsigned, ?_⟩
    rw [hclaims]
  · refine ((hdecides foreign .epoch).2.2.1 "b").mpr ⟨t', hforeign, by rw [hheader'], ?_⟩
    rw [hkeys]
    simp [k]
  · refine (hdecides unsigned .epoch).2.2.2.1.mpr ⟨u, k, hunsigned, by rwa [hheader''], ?_⟩
    rintro ⟨-, haccepted⟩
    rw [hverify, hnone, Except.ok.injEq, beq_iff_eq] at haccepted
    have hlength : (Digest.sha256.hmac [1] u.signed).length = 32 := Sha2.State.length_octets _
    rw [haccepted] at hlength
    cases hlength

end KeyRing

end TokenAuthority

import TokenAuthority.Proofs.Authenticator.Fate
import TokenAuthority.Proofs.KeyFile.Ring

/-!
# Use of loaded keys

A key file may hold a key that no good token can be made with. What is asked of a key when it
is loaded says nothing of its identifier, which tokens cannot carry if it is empty; nothing of
what an RSA key is for, nor of its numbers, which may not allow a signature at all; and nothing
of the private half of a pair beyond the public numbers that it tells itself. So a loaded key
may issue tokens that are malformed, or whose signature is bad, or none.
-/

namespace TokenAuthority

/-! ### Keys that sign -/

theorem Digest.length_of (d : Digest) (message : Bytes) : (d.of message).length = d.size := by
  cases d with
  | sha256 => exact Sha2.State.length_octets _
  | sha384 =>
      have hlength := Sha2.State.length_octets (Sha2.absorb Sha2.initial384 message)
      change ((Sha2.absorb Sha2.initial384 message).octets.take 48).length = 48
      rw [List.length_take, hlength]
      rfl
  | sha512 => exact Sha2.State.length_octets _

namespace Rsa

/-- Whether a modulus has room for a filled digest. -/
def PublicKey.HasRoom (k : PublicKey) (d : Digest) : Filling → Prop
  | .fixed => d.size + 30 ≤ k.size
  | .salted => 2 * d.size + 2 ≤ (k.bits - 1 + 7) / 8

theorem filled?_eq_none_iff {k : PrivateKey} {f : Filling} {d : Digest} {message : Bytes} :
    filled? k f d message = none ↔ ¬k.toPublic.HasRoom d f := by
  cases f with
  | fixed =>
      have hinfo : (digestInfo d).length = 19 := by cases d <;> rfl
      have hnamed : (digestInfo d ++ d.of message).length = d.size + 19 := by
        rw [List.length_append, hinfo, d.length_of, Nat.add_comm]
      change (if (digestInfo d ++ d.of message).length + 11 ≤ k.toPublic.size then _ else _) =
        none ↔ ¬(d.size + 30 ≤ k.toPublic.size)
      rw [hnamed]
      split_ifs with hroom
      · simpa using hroom
      · simpa using hroom
  | salted =>
      change (if d.size + (expand _ _ d.size).length + 2 ≤ (k.toPublic.bits - 1 + 7) / 8 then _
        else _) = none ↔ ¬(2 * d.size + 2 ≤ (k.toPublic.bits - 1 + 7) / 8)
      rw [length_expand, ← Nat.two_mul]
      split_ifs with hroom
      · simpa using hroom
      · simpa using hroom

/-- Whether an RSA key has signatures: it is one for the filling and the digest, the private
operation can be done with its numbers, and the modulus has room. -/
def PrivateKey.Signs (k : PrivateKey) (f : Filling) (d : Digest) : Prop :=
  k.use.allows f d ∧ k.isWorkable ∧ k.toPublic.HasRoom d f

/-- A key signs every message or none. -/
theorem sign_eq_none_iff {k : PrivateKey} {f : Filling} {d : Digest} {message : Bytes} :
    sign k f d message = none ↔ ¬k.Signs f d := by
  rw [sign, PrivateKey.Signs, ← and_assoc, not_and]
  split_ifs with hable
  · rw [Option.map_eq_none_iff, filled?_eq_none_iff]
    exact ⟨fun hroom _ => hroom, fun h => h hable⟩
  · exact ⟨fun _ h => absurd h hable, fun _ => rfl⟩

end Rsa

namespace KeyMaterial

/-- Whether material has signatures with an algorithm that it suits; all but RSA keys have. -/
def Signs (m : KeyMaterial) (a : Algorithm) : Prop :=
  match m with
  | .pair (.rsa k) _ => k.Signs (signedFilling a) a.digest
  | _ => True

/-- Edwards keys suit no algorithm. -/
theorem checkSuits_edwards_ne_ok (a : Algorithm) (secret : Bytes) (p : PublicKey) :
    (pair (.edwards secret) p).checkSuits a ≠ .ok () := by
  unfold checkSuits
  dsimp only
  split_ifs
  · simp
  · cases a.curve? <;> simp

theorem signPair_rsa (k : Rsa.PrivateKey) (a : Algorithm) (message : Bytes) :
    signPair (.rsa k) a message =
      match Rsa.sign k (signedFilling a) a.digest message with
      | some signature => .ok signature
      | none => .error .signingFailed := rfl

/-- Material that suits an algorithm signs every message or none. -/
theorem sign_of_suits {m : KeyMaterial} {a : Algorithm} (hsuits : m.checkSuits a = .ok ())
    (message : Bytes) :
    (m.Signs a → ∃ signature, m.sign a message = .ok signature) ∧
      (¬m.Signs a → m.sign a message = .error .signingFailed) := by
  unfold sign
  rw [hsuits]
  cases m with
  | secret octets => exact ⟨fun _ => ⟨_, rfl⟩, fun h => absurd True.intro h⟩
  | pair k p =>
      cases k with
      | ec k => exact ⟨fun _ => ⟨_, rfl⟩, fun h => absurd True.intro h⟩
      | edwards secret => exact absurd hsuits (checkSuits_edwards_ne_ok a secret p)
      | rsa k =>
          have hnone : Rsa.sign k (signedFilling a) a.digest message = none ↔
              ¬k.Signs (signedFilling a) a.digest := Rsa.sign_eq_none_iff
          change (k.Signs (signedFilling a) a.digest → ∃ signature,
            signPair (.rsa k) a message = .ok signature) ∧
              (¬k.Signs (signedFilling a) a.digest →
                signPair (.rsa k) a message = .error .signingFailed)
          rw [signPair_rsa]
          cases hsign : Rsa.sign k (signedFilling a) a.digest message with
          | none => exact ⟨fun h => absurd h (hnone.mp hsign), fun _ => rfl⟩
          | some signature =>
              refine ⟨fun _ => ⟨signature, rfl⟩, fun h => ?_⟩
              rw [hnone.mpr h] at hsign
              cases hsign

/-- Material that has made one signature makes all. -/
theorem signs_of_sign {m : KeyMaterial} {a : Algorithm} (hsuits : m.checkSuits a = .ok ())
    {message signature : Bytes} (h : m.sign a message = .ok signature) : m.Signs a := by
  by_contra hnot
  rw [(sign_of_suits hsuits message).2 hnot] at h
  cases h

end KeyMaterial

/-! ### Tokens of a loaded key -/

theorem Instant.ofSeconds?_seconds (t : Instant) :
    ofSeconds? t.seconds = some ⟨t.seconds, 0, t.first_le, t.le_last, by decide⟩ := by
  rw [ofSeconds?, of?, dif_pos ⟨t.first_le, t.le_last, by decide⟩]

theorem Duration.one_le_secondsUp {d : Duration} (h : 0 < d.nanoseconds) : 1 ≤ d.secondsUp := by
  unfold secondsUp
  omega

/-- A token whose header has an empty identifier is malformed. -/
theorem Token.parse_of_keyId_eq_empty {h : Header} (hid : h.keyId = "")
    {second third : List Char} (hsecond : '.' ∉ second) (hthird : '.' ∉ third) :
    parse (IssuedToken.text (Base64.url.encodeChars h.write) second third) =
      .error .emptyKeyId := by
  rw [parse_text (Base64.dot_not_mem_encodeChars _) hsecond hthird, ofParts,
    readPart_encodeChars .header h.read_write]
  simp only [bind, Except.bind]
  rw [if_pos hid]
  rfl

namespace IssuedToken

variable {k : SigningKey} {principal : String} {now expiry : Instant} {lifetime : Duration}

/-- A token can be issued with a key that signs. -/
theorem exists_issue_of_signs (hsigns : k.material.Signs k.algorithm)
    (hprincipal : principal ≠ "")
    (hexpiry : Instant.ofSeconds? (now.seconds + lifetime.secondsUp) = some expiry) :
    ∃ token, issue k principal now lifetime = .ok token := by
  obtain ⟨signature, hsign⟩ := (KeyMaterial.sign_of_suits k.suits _).1 hsigns
  exact ⟨⟨_, _, expiry⟩, issue_eq_ok_iff.mpr ⟨hprincipal, signature, hsign,
    instant_eq_ok_iff.mpr now.ofSeconds?_seconds, instant_eq_ok_iff.mpr hexpiry, rfl⟩⟩

theorem issue_of_not_signs (hsigns : ¬k.material.Signs k.algorithm) (hprincipal : principal ≠ "") :
    issue k principal now lifetime = .error (.cryptographic .signingFailed) := by
  rw [issue_of_ne hprincipal]
  dsimp only
  rw [(KeyMaterial.sign_of_suits k.suits _).2 hsigns]
  rfl

end IssuedToken

namespace TokenAuthenticator

section

variable {r : KeyRing} {k : SigningKey} {principal : String} {now : Instant}
  {lifetime : Duration} {token : IssuedToken}

theorem verify_of_empty_id (hid : k.id = "")
    (h : IssuedToken.issue k principal now lifetime = .ok token) (r : KeyRing) (t : Instant) :
    r.verify token.data t = .error (.malformed .emptyKeyId) := by
  obtain ⟨-, signature, -, -, -, hdata⟩ := IssuedToken.issue_eq_ok_iff.mp h
  have hparse : Token.parse token.data = .error .emptyKeyId := by
    rw [hdata]
    exact Token.parse_of_keyId_eq_empty hid (Base64.dot_not_mem_encodeChars _)
      (Base64.dot_not_mem_encodeChars _)
  exact KeyRing.verify_eq_error_iff.mpr (Or.inl ⟨_, hparse, rfl⟩)

/-- What a ring with a single key says, at the instant of issue, to a token of the key: it is
the check of the signature that decides. -/
theorem verify_of_issue (hkeys : r.keys = [k]) (hid : k.id ≠ "")
    (hlifetime : 0 < lifetime.nanoseconds)
    (h : IssuedToken.issue k principal now lifetime = .ok token) :
    ∃ T, Token.parse token.data = .ok T ∧
      k.material.sign k.algorithm T.signed = .ok T.signature ∧
      (k.material.verify k.algorithm T.signed T.signature = .ok true →
        r.verify token.data now = .ok principal) ∧
      (k.material.verify k.algorithm T.signed T.signature ≠ .ok true →
        r.verify token.data now = .error .badSignature) := by
  obtain ⟨signature, hsign, -, hparse⟩ := IssuedToken.exists_parse_of_issue hid h
  obtain ⟨-, -, -, -, hexpires, -⟩ := IssuedToken.issue_eq_ok_iff.mp h
  have hseconds := Instant.seconds_of_ofSeconds? (IssuedToken.instant_eq_ok_iff.mp hexpires)
  generalize Token.signedForm _ _ = signed at hparse hsign
  refine ⟨_, hparse, hsign, fun hverify => ?_, fun hverify => ?_⟩
  · have hlater : now.seconds < (IssuedToken.claims principal now lifetime).expiresAt := by
      have hpositive := Duration.one_le_secondsUp hlifetime
      rw [IssuedToken.claims]
      dsimp only
      omega
    rw [(verify_of_keys_eq hkeys hparse rfl ⟨rfl, hverify⟩ now).1 rfl, if_pos hlater]
    rfl
  · have hnewest : r.Newest k.id k := ⟨[], [], hkeys, rfl, by simp⟩
    exact KeyRing.verify_eq_error_iff.mpr (Or.inr ⟨_, Token.parse_eq_ok_iff.mp hparse,
      Or.inr ⟨k, hnewest, Or.inl ⟨fun hsigned => hverify hsigned.2, rfl⟩⟩⟩)

end

/-- A key of octets issues tokens that a ring with this key alone verifies. -/
theorem exists_verified_of_secret {r : KeyRing} {k : SigningKey} (hkeys : r.keys = [k])
    {octets : Bytes} (hk : k.material = .secret octets) (hid : k.id ≠ "") {principal : String}
    (hprincipal : principal ≠ "") {now created validBefore : Instant} {lifetime : Duration}
    (hlifetime : 0 < lifetime.nanoseconds)
    (hcreated : IssuedToken.instant now.seconds = .ok created)
    (hbefore : IssuedToken.instant (now.seconds + lifetime.secondsUp) = .ok validBefore) :
    ∃ token, IssuedToken.issue k principal now lifetime = .ok token ∧
      r.verify token.data now = .ok principal := by
  obtain ⟨token, htoken⟩ := exists_issue_of_secret hk hprincipal hcreated hbefore
  obtain ⟨T, -, hsign, hverified, -⟩ := verify_of_issue hkeys hid hlifetime htoken
  refine ⟨token, htoken, hverified ?_⟩
  rw [hk] at hsign ⊢
  exact KeyMaterial.verify_of_sign_secret hsign

section

variable {σ : Type} {s : Surroundings (StateM σ)} {store : KeyStore (StateM σ)}

/-- An authenticator whose key is loaded has no other. -/
theorem keys_of_start {c : CheckedSettings} {k : SigningKey} {t : TokenAuthenticator} {w w₁ : σ}
    (hload : ((store.load c.algorithm).run w).1 = .ok (some k))
    (hstart : (start s store c).run w = (.ok t, w₁)) : t.ring.keys = [k] := by
  have hseeding := seeding_of_start hstart
  generalize t.ring = r at hseeding ⊢
  cases hseeding with
  | loaded blank found =>
      rw [found] at hload
      cases hload
      exact KeyRing.keys_install_of_nil (KeyRing.of_empty_eq_ok blank).2.2 k
  | rotated _ absent _ =>
      rw [absent] at hload
      cases hload

end

end TokenAuthenticator

end TokenAuthority

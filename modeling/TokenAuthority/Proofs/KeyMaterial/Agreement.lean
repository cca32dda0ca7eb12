import TokenAuthority.Proofs.Authenticator.Usable
import TokenAuthority.Proofs.Token.Unique

/-!
# Agreement of signing and checking

Signing and checking refuse the same material, and with the same error. Where they do not, a
check of any octets has an answer, and what was signed is a signature: the octets of a signature
on a curve tell its two numbers again, both sides fill up a digest in the same way, and a secret
has one signature of a message.
-/

namespace TokenAuthority

/-! ### Numbers in octets -/

namespace Bytes

theorem toNatBE_ofNatBE {w n : Nat} (h : n < 256 ^ w) : toNatBE (ofNatBE w n) = n := by
  induction w generalizing n with
  | zero =>
      rw [Nat.pow_zero, Nat.lt_one_iff] at h
      rw [h, ofNatBE_zero, toNatBE_nil]
  | succ w ih =>
      have hhigh : n / 256 < 256 ^ w := by
        rw [Nat.pow_succ] at h
        exact Nat.div_lt_of_lt_mul (Nat.mul_comm _ _ ▸ h)
      rw [ofNatBE_succ, toNatBE_concat, ih hhigh, UInt8.toNat_ofNat']
      omega

end Bytes

theorem Curve.order_le (c : Curve) : c.params.order ≤ 256 ^ c.orderSize := by
  cases c <;> decide +kernel

namespace Ecdsa

/-- Octets tell the numbers of a signature again if there is room for both. -/
theorem Pair.decode?_encode {width : Nat} {p : Pair} (hr : p.r < 256 ^ width)
    (hs : p.s < 256 ^ width) : decode? width (p.encode width) = some p := by
  have hlength : (Bytes.ofNatBE width p.r).length = width := Bytes.length_ofNatBE _ _
  rw [decode?, if_pos (length_encode width p), encode, List.take_left' hlength,
    List.drop_left' hlength, Bytes.toNatBE_ofNatBE hr, Bytes.toNatBE_ofNatBE hs]

/-- Both numbers of a signature are below the order of the curve. -/
theorem lt_order_of_verify {k : PublicKey} {d : Digest} {message : Bytes} {p : Pair}
    (h : verify k d message p = true) :
    p.r < k.curve.params.order ∧ p.s < k.curve.params.order := by
  rw [verify] at h
  split_ifs at h with hbounds
  exact ⟨hbounds.2.1, hbounds.2.2.2⟩

end Ecdsa

/-- Two keys with one point are on one curve. -/
theorem PublicKey.curve_eq_of_isSame {k p : Ecdsa.PublicKey}
    (h : (PublicKey.ec k).isSame (.ec p)) : k.curve = p.curve := by
  simp only [isSame, Bool.and_eq_true, beq_iff_eq] at h
  exact h.1.1

namespace KeyMaterial

/-- Whether the halves of a pair belong together. -/
def IsMatched : KeyMaterial → Prop
  | secret _ => True
  | pair k p => k.toPublic.isSame p

/-- Whether the check of a signature with the public half of a pair accepts what the private
half makes of a message. A secret has no halves, and Edwards keys do not sign. -/
def HalvesAgree (m : KeyMaterial) (d : Digest) (message : Bytes) : Prop :=
  match m with
  | pair (.ec k) (.ec p) => Ecdsa.verify p d message (Ecdsa.sign k d message) = true
  | pair (.rsa k) (.rsa p) => ∀ f signature, Rsa.sign k f d message = some signature →
      Rsa.verify p f d message signature = true
  | _ => True

/-- A digest is filled up in one way for signing and for checking. -/
theorem signedFilling_eq_checkedFilling (a : Algorithm) : signedFilling a = checkedFilling a :=
  rfl

section

variable {m : KeyMaterial} {a : Algorithm} {message signature : Bytes} {e : KeyError}

theorem sign_eq_error_of_checkSuits (h : m.checkSuits a = .error e) :
    m.sign a message = .error e := by
  unfold sign
  rw [h]
  rfl

theorem verify_eq_error_of_checkSuits (h : m.checkSuits a = .error e) :
    m.verify a message signature = .error e := by
  unfold verify
  rw [h]
  rfl

/-- There is an answer to any octets if the material suits the algorithm. -/
theorem exists_verify_of_checkSuits (h : m.checkSuits a = .ok ()) (message signature : Bytes) :
    ∃ answer, m.verify a message signature = .ok answer := by
  unfold verify
  rw [h]
  cases m with
  | secret octets => exact ⟨_, rfl⟩
  | pair k p => exact ⟨_, rfl⟩

theorem verify_eq_error_iff :
    m.verify a message signature = .error e ↔ m.checkSuits a = .error e := by
  constructor
  · intro h
    cases hsuits : m.checkSuits a with
    | error e' =>
        cases (verify_eq_error_of_checkSuits hsuits).symm.trans h
        rfl
    | ok _ =>
        obtain ⟨answer, hanswer⟩ := exists_verify_of_checkSuits hsuits message signature
        cases hanswer.symm.trans h
  · exact verify_eq_error_of_checkSuits

theorem checkSuits_of_sign (h : m.sign a message = .ok signature) : m.checkSuits a = .ok () := by
  cases hsuits : m.checkSuits a with
  | error e => cases (sign_eq_error_of_checkSuits hsuits).symm.trans h
  | ok _ => rfl

theorem verifyPair_of_decode? {p : Ecdsa.PublicKey} {numbers : Ecdsa.Pair}
    (h : Ecdsa.Pair.decode? p.curve.orderSize signature = some numbers) :
    verifyPair (.ec p) a message signature = Ecdsa.verify p a.digest message numbers := by
  rw [verifyPair, h]

/-- The octets that a pair signs are a signature to the other half. -/
theorem verifyPair_of_signPair {k : PrivateKey} {p : PublicKey} (hmatched : (pair k p).IsMatched)
    (hagree : (pair k p).HalvesAgree a.digest message)
    (h : signPair k a message = .ok signature) : verifyPair p a message signature = true := by
  cases k with
  | ec k =>
      cases h
      cases p with
      | ec p =>
          have hcurve : k.curve = p.curve := PublicKey.curve_eq_of_isSame hmatched
          obtain ⟨hr, hs⟩ := Ecdsa.lt_order_of_verify hagree
          have hroom := Curve.order_le p.curve
          have hdecode := Ecdsa.Pair.decode?_encode (hr.trans_le hroom) (hs.trans_le hroom)
          rw [hcurve, verifyPair_of_decode? hdecode]
          exact hagree
      | rsa _ => cases hmatched
      | edwards _ => cases hmatched
  | rsa k =>
      rw [signPair_rsa] at h
      cases hsign : Rsa.sign k (signedFilling a) a.digest message with
      | none =>
          rw [hsign] at h
          cases h
      | some octets =>
          rw [hsign] at h
          cases h
          rw [signedFilling_eq_checkedFilling] at hsign
          cases p with
          | rsa p => exact hagree _ _ hsign
          | ec _ => cases hmatched
          | edwards _ => cases hmatched
  | edwards secret => cases h

theorem verify_of_sign (hmatched : m.IsMatched) (hagree : m.HalvesAgree a.digest message)
    (h : m.sign a message = .ok signature) : m.verify a message signature = .ok true := by
  have hsuits := checkSuits_of_sign h
  cases m with
  | secret octets => exact verify_of_sign_secret h
  | pair k p =>
      rw [sign, hsuits] at h
      rw [verify, hsuits]
      exact congrArg Except.ok (verifyPair_of_signPair hmatched hagree h)

/-- A secret compares the octets with the keyed digest of the message, and only if they are as
many. -/
theorem verify_secret_guarded {octets : Bytes} (hsuits : (secret octets).checkSuits a = .ok ()) :
    (secret octets).verify a message signature =
      .ok (if h : (a.digest.hmac octets message).length = signature.length then
        Bytes.agree (a.digest.hmac octets message) signature h else false) := by
  rw [verify, hsuits]
  rfl

end

/-- Of matched material a check fails exactly if the material does not suit the algorithm, with
the error that says why, and signing fails with it too. Otherwise there is an answer to octets
of any number. It is yes to what was signed, if the halves of a pair agree on the message. A
secret compares the octets with the keyed digest of the message, and only if they are as many;
so its answer is yes to the keyed digest alone. -/
theorem verify_agrees_with_sign {m : KeyMaterial} (hmatched : m.IsMatched) (a : Algorithm)
    (message signature : Bytes) :
    (∀ e, m.verify a message signature = .error e ↔ m.checkSuits a = .error e) ∧
    (∀ e, m.checkSuits a = .error e → m.sign a message = .error e) ∧
    (m.checkSuits a = .ok () → ∃ answer, m.verify a message signature = .ok answer) ∧
    (m.HalvesAgree a.digest message → m.sign a message = .ok signature →
      m.verify a message signature = .ok true) ∧
    ∀ octets, m = .secret octets → m.checkSuits a = .ok () →
      m.verify a message signature =
        .ok (if h : (a.digest.hmac octets message).length = signature.length then
          Bytes.agree (a.digest.hmac octets message) signature h else false) ∧
      (m.verify a message signature = .ok true ↔ signature = a.digest.hmac octets message) := by
  refine ⟨fun e => verify_eq_error_iff, fun e => sign_eq_error_of_checkSuits,
    fun hsuits => exists_verify_of_checkSuits hsuits message signature,
    verify_of_sign hmatched, ?_⟩
  rintro octets rfl hsuits
  refine ⟨verify_secret_guarded hsuits, fun h => ?_, fun h => ?_⟩
  · have hsigned := verify_of_sign_secret (sign_secret hsuits message)
    exact eq_of_verify (beq_iff_eq.mpr (family_of_checkSuits hsuits)) hsuits h hsigned
  · exact verify_of_sign_secret (h ▸ sign_secret hsuits message)

/-- A pair on a curve whose halves agree on a message of no octets. -/
theorem verify_agrees_with_sign_curve :
    ∃ (k : Ecdsa.PrivateKey) (signature : Bytes),
      (pair (.ec k) (.ec k.toPublic)).IsMatched ∧
      (pair (.ec k) (.ec k.toPublic)).HalvesAgree .sha256 [] ∧
      (pair (.ec k) (.ec k.toPublic)).sign ⟨.ecdsa, .sha256⟩ [] = .ok signature ∧
      (pair (.ec k) (.ec k.toPublic)).verify ⟨.ecdsa, .sha256⟩ [] signature = .ok true := by
  let k : Ecdsa.PrivateKey :=
    ⟨.p256, 1, Curve.p256.params.baseX, Curve.p256.params.baseY, .plain, true⟩
  have hagree : Ecdsa.verify k.toPublic .sha256 [] (Ecdsa.sign k .sha256 []) = true := by
    decide +kernel
  have hsign : (pair (.ec k) (.ec k.toPublic)).sign ⟨.ecdsa, .sha256⟩ [] =
      .ok ((Ecdsa.sign k .sha256 []).encode k.curve.orderSize) := rfl
  have hmatched : (pair (.ec k) (.ec k.toPublic)).IsMatched := rfl
  exact ⟨k, _, hmatched, hagree, hsign,
    (verify_agrees_with_sign hmatched ⟨.ecdsa, .sha256⟩ [] _).2.2.2.1 hagree hsign⟩

end KeyMaterial

end TokenAuthority

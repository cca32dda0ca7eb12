import TokenAuthority.SigningKey
import Mathlib.Tactic.Common

/-!
# Fresh material

Material that is made for an algorithm suits the algorithm, so a fresh key can always be
made. What a secret signs is a signature to the same secret.
-/

namespace TokenAuthority

/-! ### Comparing octets -/

namespace Bytes

theorem foldl_or_eq_zero_iff {bs : Bytes} {b : UInt8} :
    bs.foldl (· ||| ·) b = 0 ↔ b = 0 ∧ ∀ x ∈ bs, x = 0 := by
  induction bs generalizing b with
  | nil => simp
  | cons x bs ih => rw [List.foldl_cons, ih, UInt8.or_eq_zero_iff, List.forall_mem_cons, and_assoc]

theorem forall_xor_eq_zero_iff {xs ys : Bytes} (h : xs.length = ys.length) :
    (∀ x ∈ xor xs ys, x = 0) ↔ xs = ys := by
  induction xs generalizing ys with
  | nil => simp [xor, List.length_eq_zero_iff.mp h.symm]
  | cons x xs ih =>
      obtain ⟨y, ys, rfl⟩ := List.exists_cons_of_length_eq_add_one h.symm
      have htail := ih (Nat.succ.inj h)
      rw [xor] at htail ⊢
      rw [List.zipWith_cons_cons, List.forall_mem_cons, htail, UInt8.xor_eq_zero_iff,
        List.cons_eq_cons]

theorem agree_iff {xs ys : Bytes} (h : xs.length = ys.length) : agree xs ys h ↔ xs = ys := by
  rw [agree, beq_iff_eq, foldl_or_eq_zero_iff, forall_xor_eq_zero_iff h]
  simp

/-- A comparison of every octet, where there are as many, tells whether two strings are the
same. -/
theorem guarded_agree_eq_beq (xs ys : Bytes) :
    (if h : xs.length = ys.length then agree xs ys h else false) = (xs == ys) := by
  rw [Bool.eq_iff_iff, beq_iff_eq]
  split_ifs with hlength
  · exact agree_iff hlength
  · exact ⟨False.elim, fun h => hlength (congrArg List.length h)⟩

end Bytes

/-! ### Lengths of digests -/

theorem Sha2.State.length_octets {w : Type} [Sha2.Word w] (s : Sha2.State w) :
    s.octets.length = 8 * Sha2.Word.octets w := by
  simp [octets, toList]
  omega

theorem Digest.length_hmac_sha512 (secret message : Bytes) :
    (Digest.sha512.hmac secret message).length = 64 :=
  Sha2.State.length_octets _

/-- As many octets are expanded as are wanted. -/
theorem length_expand (seed label : Bytes) (n : Nat) : (expand seed label n).length = n := by
  have hlength : ((List.range ((n + 63) / 64)).flatMap fun i =>
      Digest.sha512.hmac seed (label ++ Bytes.ofNatBE 4 i)).length = (n + 63) / 64 * 64 := by
    simp [List.length_flatMap, Digest.length_hmac_sha512, List.map_const']
  rw [expand, List.length_take, hlength]
  omega

theorem Ecdsa.curve_generate (c : Curve) (seed : Bytes) : (generate c seed).curve = c := by
  rw [generate, PrivateKey.ofSecret?]
  cases c.baseTimes (expandBelow seed [3] c.params.order) <;> rfl

namespace KeyMaterial

/-- An algorithm only signs with material of its family. -/
theorem family_of_checkSuits {m : KeyMaterial} {a : Algorithm}
    (h : m.checkSuits a = .ok ()) : a.family = m.family := by
  by_cases hsymmetric : a.isSymmetric
  · cases m with
    | secret octets => exact beq_iff_eq.mp hsymmetric
    | pair k p =>
        simp only [checkSuits, if_pos hsymmetric, reduceCtorEq] at h
  · cases m with
    | secret octets =>
        simp only [checkSuits, if_neg hsymmetric, reduceCtorEq] at h
    | pair k p =>
        rw [Algorithm.isSymmetric, beq_iff_eq] at hsymmetric
        change a.family = .asymmetric
        cases hfamily : a.family with
        | symmetric => exact absurd hfamily hsymmetric
        | asymmetric => rfl

theorem checkSuits_secret {octets : Bytes} (h : octets ≠ []) (d : Digest) :
    (secret octets).checkSuits ⟨.hmac, d⟩ = .ok () := by
  have hsymmetric : Algorithm.isSymmetric ⟨.hmac, d⟩ := rfl
  rw [checkSuits, if_pos hsymmetric, if_neg h]

theorem checkSuits_curve {a : Algorithm} {c : Curve} (hc : a.curve? = some c)
    (hfamily : ¬a.isSymmetric) {k : Ecdsa.PrivateKey} (hk : k.curve = c) (p : PublicKey) :
    (pair (.ec k) p).checkSuits a = .ok () := by
  simp only [checkSuits, if_neg hfamily, hc, if_pos hk]

theorem checkSuits_rsa {a : Algorithm} (hc : a.curve? = none) (hfamily : ¬a.isSymmetric)
    (k : Rsa.PrivateKey) (p : PublicKey) : (pair (.rsa k) p).checkSuits a = .ok () := by
  simp only [checkSuits, if_neg hfamily, hc]

/-- Fresh material suits the algorithm that it was made for. -/
theorem checkSuits_generate (a : Algorithm) (seed : Bytes) :
    (generate a seed).checkSuits a = .ok () := by
  obtain ⟨scheme, d⟩ := a
  cases scheme with
  | hmac =>
      have hpos : 0 < d.size := by
        cases d <;> decide
      refine checkSuits_secret ?_ d
      rw [← List.length_pos_iff, length_expand]
      exact hpos
  | ecdsa =>
      cases d with
      | sha256 => exact checkSuits_curve rfl (by decide) (Ecdsa.curve_generate .p256 seed) _
      | sha384 => exact checkSuits_curve rfl (by decide) (Ecdsa.curve_generate .p384 seed) _
      | sha512 => exact checkSuits_curve rfl (by decide) (Ecdsa.curve_generate .p521 seed) _
  | rsaFixed => exact checkSuits_rsa rfl (by cases d <;> decide) (Rsa.generate seed) _
  | rsaSalted => exact checkSuits_rsa rfl (by cases d <;> decide) (Rsa.generate seed) _

theorem sign_secret {octets : Bytes} {a : Algorithm}
    (h : (secret octets).checkSuits a = .ok ()) (message : Bytes) :
    (secret octets).sign a message = .ok (a.digest.hmac octets message) := by
  rw [sign, h]
  rfl

/-- A secret accepts the keyed digest of the message and no other octets. -/
theorem verify_secret {octets : Bytes} {a : Algorithm}
    (h : (secret octets).checkSuits a = .ok ()) (message signature : Bytes) :
    (secret octets).verify a message signature =
      .ok (a.digest.hmac octets message == signature) := by
  rw [verify, h, ← Bytes.guarded_agree_eq_beq]
  rfl

/-- What a secret signs is a signature to the same secret. -/
theorem verify_of_sign_secret {octets : Bytes} {a : Algorithm} {message signature : Bytes}
    (h : (secret octets).sign a message = .ok signature) :
    (secret octets).verify a message signature = .ok true := by
  cases hsuits : (secret octets).checkSuits a with
  | error e =>
      rw [sign, hsuits] at h
      cases h
  | ok _ =>
      cases (sign_secret hsuits message).symm.trans h
      rw [verify_secret hsuits, beq_self_eq_true]

end KeyMaterial

namespace SigningKey

/-- A fresh key can always be made. -/
theorem exists_generate (a : Algorithm) (now : Moment) (random : Bytes) :
    ∃ k, generate a now random = .ok k := by
  rw [generate]
  cases h : ofParts (Uuid.timed now random) a now
      (KeyMaterial.generate a (random.drop Uuid.randomSize)) with
  | ok k => exact ⟨k, rfl⟩
  | error e =>
      rw [ofParts_eq_error_iff, KeyMaterial.checkSuits_generate] at h
      cases h

end SigningKey

end TokenAuthority

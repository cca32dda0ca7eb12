import TokenAuthority.Proofs.Authenticator.Issuance
import TokenAuthority.Proofs.KeyMaterial.Agreement

/-!
# Signatures of a fixed width

A signature with a key on a curve is two numbers below the order of the curve, each in as many
octets as the order needs, with zeros in front of a small one. So octets of that number and
pairs of numbers that fit are the same thing, in both directions, and the check of a signature
is made on the very numbers that were signed. Octets of any other number, the tagged form of a
signature among them, are no signature.
-/

namespace TokenAuthority

namespace Bytes

/-- Octets are the only ones of their number for what they stand for. -/
theorem ofNatBE_toNatBE (bs : Bytes) : ofNatBE bs.length (toNatBE bs) = bs := by
  induction bs using List.reverseRecOn with
  | nil => rfl
  | append_singleton bs b ih =>
      have hb : b.toNat < 256 := b.toNat_lt
      have hhigh : (toNatBE bs * 256 + b.toNat) / 256 = toNatBE bs := by omega
      have hlow : UInt8.ofNat (toNatBE bs * 256 + b.toNat) = b := by
        rw [← UInt8.toNat_inj, UInt8.toNat_ofNat']
        omega
      rw [List.length_append, List.length_singleton, ofNatBE_succ, toNatBE_concat, hhigh, hlow, ih]

end Bytes

theorem Curve.order_pos (c : Curve) : 0 < c.params.order := by
  cases c <;> decide

namespace Der

theorem length_item (tag : UInt8) (content : Bytes) :
    content.length + 2 ≤ (item tag content).length := by
  have hlength : 0 < (length content.length).length := by
    rw [length]
    split_ifs
    · exact Nat.one_pos
    · exact Nat.succ_pos _
  rw [item, List.length_cons, List.length_append]
  omega

/-- A number is written with two octets more than it needs, or with three. -/
theorem length_integer (n : Nat) : Bytes.width n + 2 ≤ (integer n).length := by
  have hwidth : (Bytes.ofNatMin n).length = Bytes.width n := Bytes.length_ofNatBE _ _
  rw [integer]
  refine Nat.le_trans ?_ (length_item _ _)
  split_ifs
  · rw [hwidth]
  · rw [List.length_cons, hwidth]
    omega

end Der

namespace Ecdsa

namespace Pair

/-- The two numbers as tagged items. -/
def tagged (p : Pair) : Bytes := Der.sequence [Der.integer p.r, Der.integer p.s]

/-- Both numbers are among those that a signature on a curve may have. -/
def InRange (c : Curve) (p : Pair) : Prop :=
  (0 < p.r ∧ p.r < c.params.order) ∧ 0 < p.s ∧ p.s < c.params.order

/-- The tagged form of numbers that are not very small is longer than the one of fixed width. -/
theorem length_tagged {width : Nat} {p : Pair} (hr : 256 ^ (width - 3) ≤ p.r)
    (hs : 256 ^ (width - 3) ≤ p.s) : 2 * width < p.tagged.length := by
  have hwr := Bytes.lt_width hr
  have hws := Bytes.lt_width hs
  have hlr := Der.length_integer p.r
  have hls := Der.length_integer p.s
  have hparts : (Der.integer p.r ++ (Der.integer p.s ++ [])).length + 2 ≤ p.tagged.length :=
    Der.length_item Der.sequenceTag _
  rw [List.length_append, List.append_nil] at hparts
  omega

theorem decode?_eq_none {width : Nat} {bs : Bytes} (h : bs.length ≠ 2 * width) :
    decode? width bs = none := if_neg h

theorem exists_decode? {width : Nat} {bs : Bytes} (h : bs.length = 2 * width) :
    ∃ p, decode? width bs = some p := ⟨_, if_pos h⟩

/-- The numbers that octets stand for are written with the same octets. -/
theorem encode_of_decode? {width : Nat} {bs : Bytes} {p : Pair} (h : decode? width bs = some p) :
    p.encode width = bs := by
  rw [decode?] at h
  split_ifs at h with hlength
  cases h
  have htake : (bs.take width).length = width := by rw [List.length_take]; omega
  have hdrop : (bs.drop width).length = width := by rw [List.length_drop]; omega
  have hr := Bytes.ofNatBE_toNatBE (bs.take width)
  have hs := Bytes.ofNatBE_toNatBE (bs.drop width)
  rw [htake] at hr
  rw [hdrop] at hs
  rw [encode, hr, hs, List.take_append_drop]

end Pair

/-! ### The numbers of a signature -/

theorem signWith_lt_order (k : PrivateKey) (digest : Bytes) (nonce : Nat) :
    (signWith k digest nonce).r < k.curve.params.order ∧
      (signWith k digest nonce).s < k.curve.params.order := by
  have hpos := k.curve.order_pos
  rw [signWith]
  cases k.curve.baseTimes nonce with
  | infinity => exact ⟨hpos, hpos⟩
  | affine x y => exact ⟨Nat.mod_lt _ hpos, Nat.mod_lt _ hpos⟩

theorem attempt_lt_order (k : PrivateKey) (digest : Bytes) (tries i : Nat) :
    (attempt k digest tries i).r < k.curve.params.order ∧
      (attempt k digest tries i).s < k.curve.params.order := by
  induction tries generalizing i with
  | zero => exact ⟨k.curve.order_pos, k.curve.order_pos⟩
  | succ tries ih =>
      simp only [attempt]
      split_ifs with hzero
      · exact ih (i + 1)
      · exact signWith_lt_order k digest _

theorem sign_lt_order (k : PrivateKey) (d : Digest) (message : Bytes) :
    (sign k d message).r < k.curve.params.order ∧ (sign k d message).s < k.curve.params.order :=
  attempt_lt_order k _ 64 0

/-- A pair of numbers that a signature may have is read from the octets that it is written in. -/
theorem Pair.decode?_encode_of_inRange {c : Curve} {p : Pair} (h : p.InRange c) :
    decode? c.orderSize (p.encode c.orderSize) = some p :=
  decode?_encode (h.1.2.trans_le c.order_le) (h.2.2.trans_le c.order_le)

end Ecdsa

namespace KeyMaterial

/-- How many octets each number of a signature has. -/
def halfSize : Digest → Nat
  | .sha256 => 32
  | .sha384 => 48
  | .sha512 => 66

section

variable {d : Digest} {k : Ecdsa.PrivateKey}

theorem orderSize_eq_halfSize {c : Curve} (h : Algorithm.curve? ⟨.ecdsa, d⟩ = some c) :
    c.orderSize = halfSize d := by
  cases d <;> cases h <;> decide +kernel

theorem checkSuits_ofCurve (h : Algorithm.curve? ⟨.ecdsa, d⟩ = some k.curve) :
    (ofPrivateKey (.ec k)).checkSuits ⟨.ecdsa, d⟩ = .ok () :=
  checkSuits_curve h Bool.false_ne_true rfl _

theorem sign_ofCurve (h : Algorithm.curve? ⟨.ecdsa, d⟩ = some k.curve) (message : Bytes) :
    (ofPrivateKey (.ec k)).sign ⟨.ecdsa, d⟩ message =
      .ok ((Ecdsa.sign k d message).encode k.curve.orderSize) := by
  unfold sign
  rw [checkSuits_ofCurve h]
  rfl

/-- A signature is checked by the numbers that its octets stand for, if they stand for any. -/
theorem verify_ofCurve (h : Algorithm.curve? ⟨.ecdsa, d⟩ = some k.curve)
    (message signature : Bytes) :
    (ofPrivateKey (.ec k)).verify ⟨.ecdsa, d⟩ message signature =
      .ok (match Ecdsa.Pair.decode? k.curve.orderSize signature with
        | some p => Ecdsa.verify k.toPublic d message p
        | none => false) := by
  unfold verify
  rw [checkSuits_ofCurve h]
  rfl

end

/-- Signatures with a key on a curve have a fixed width. Each number has 32, 48 or 66 octets.
Whatever two numbers of the range a signature has, leading zeros or not, its octets are as many,
they tell the two numbers again, and these are what is checked; so it is with what is signed.
Octets of that number stand for two numbers that have no other octets. Octets of any other number
are answered with no, and so is the tagged form of numbers that are not very small. -/
theorem sign_fixed_width {d : Digest} {k : Ecdsa.PrivateKey}
    (hcurve : Algorithm.curve? ⟨.ecdsa, d⟩ = some k.curve) (message : Bytes) :
    let a : Algorithm := ⟨.ecdsa, d⟩
    let m := ofPrivateKey (.ec k)
    let size := halfSize d
    a.componentSize? = some size ∧
    (∀ p : Ecdsa.Pair, p.InRange k.curve →
      (p.encode size).length = 2 * size ∧ Ecdsa.Pair.decode? size (p.encode size) = some p ∧
      m.verify a message (p.encode size) = .ok (Ecdsa.verify k.toPublic d message p)) ∧
    (∃ p : Ecdsa.Pair, p = Ecdsa.sign k d message ∧
      m.sign a message = .ok (p.encode size) ∧
      (p.encode size).length = 2 * size ∧ Ecdsa.Pair.decode? size (p.encode size) = some p ∧
      m.verify a message (p.encode size) = .ok (Ecdsa.verify k.toPublic d message p)) ∧
    (∀ octets : Bytes, octets.length = 2 * size →
      ∃ p, Ecdsa.Pair.decode? size octets = some p ∧ p.encode size = octets ∧
        ∀ others, Ecdsa.Pair.decode? size others = some p → others = octets) ∧
    (∀ signature, signature.length ≠ 2 * size → m.verify a message signature = .ok false) ∧
    ∀ p : Ecdsa.Pair, 256 ^ (size - 3) ≤ p.r → 256 ^ (size - 3) ≤ p.s →
      m.verify a message p.tagged = .ok false := by
  intro a m size
  have hsize : k.curve.orderSize = size := orderSize_eq_halfSize hcurve
  have hverify : ∀ signature p, Ecdsa.Pair.decode? size signature = some p →
      m.verify a message signature = .ok (Ecdsa.verify k.toPublic d message p) := by
    intro signature p hdecode
    rw [verify_ofCurve hcurve, hsize, hdecode]
  have hother : ∀ signature, signature.length ≠ 2 * size →
      m.verify a message signature = .ok false := by
    intro signature hlength
    rw [verify_ofCurve hcurve, hsize, Ecdsa.Pair.decode?_eq_none hlength]
  refine ⟨?_, ?_, ⟨_, rfl, ?_⟩, ?_, hother, ?_⟩
  · rw [Algorithm.componentSize?, hcurve, Option.map_some, hsize]
  · intro p hp
    have hdecode := Ecdsa.Pair.decode?_encode_of_inRange hp
    rw [hsize] at hdecode
    exact ⟨Ecdsa.Pair.length_encode size p, hdecode, hverify _ p hdecode⟩
  · obtain ⟨hr, hs⟩ := Ecdsa.sign_lt_order k d message
    have hroom := k.curve.order_le
    have hdecode := Ecdsa.Pair.decode?_encode (hr.trans_le hroom) (hs.trans_le hroom)
    rw [hsize] at hdecode
    exact ⟨hsize ▸ sign_ofCurve hcurve message, Ecdsa.Pair.length_encode size _, hdecode,
      hverify _ _ hdecode⟩
  · intro octets hlength
    obtain ⟨p, hdecode⟩ := Ecdsa.Pair.exists_decode? hlength
    have hencode := Ecdsa.Pair.encode_of_decode? hdecode
    refine ⟨p, hdecode, hencode, fun others hothers => ?_⟩
    rw [← hencode, Ecdsa.Pair.encode_of_decode? hothers]
  · intro p hr hs
    exact hother _ (Ecdsa.Pair.length_tagged hr hs).ne'

/-- The widest curve: a pair with almost nothing but leading zeros, octets that are all zero, no
octets at all, and a pair in tagged form. -/
theorem sign_fixed_width_leading_zeros :
    ∃ k : Ecdsa.PrivateKey, Algorithm.curve? ⟨.ecdsa, .sha512⟩ = some k.curve ∧
      Ecdsa.Pair.InRange k.curve ⟨1, 256⟩ ∧
      Ecdsa.Pair.decode? 66 (Ecdsa.Pair.encode 66 ⟨1, 256⟩) = some ⟨1, 256⟩ ∧
      (∃ p, Ecdsa.Pair.decode? 66 (List.replicate 132 0) = some p ∧
        p.encode 66 = List.replicate 132 0) ∧
      (ofPrivateKey (.ec k)).verify ⟨.ecdsa, .sha512⟩ [] [] = .ok false ∧
      (ofPrivateKey (.ec k)).verify ⟨.ecdsa, .sha512⟩ []
        (Ecdsa.Pair.tagged ⟨256 ^ 63, 256 ^ 65⟩) = .ok false := by
  let k : Ecdsa.PrivateKey :=
    ⟨.p521, 1, Curve.p521.params.baseX, Curve.p521.params.baseY, .plain, true⟩
  have hrange : Ecdsa.Pair.InRange .p521 ⟨1, 256⟩ := by
    rw [Ecdsa.Pair.InRange]
    decide +kernel
  obtain ⟨-, hpairs, -, hoctets, hother, htagged⟩ :=
    sign_fixed_width (d := .sha512) (k := k) rfl []
  obtain ⟨p, hdecode, hencode, -⟩ := hoctets (List.replicate 132 0) List.length_replicate
  refine ⟨k, rfl, hrange, (hpairs _ hrange).2.1, ⟨p, hdecode, hencode⟩, hother [] (by decide), ?_⟩
  have hlarge : (256 : Nat) ^ (66 - 3) ≤ 256 ^ 65 := Nat.pow_le_pow_right (by decide) (by decide)
  exact htagged _ (Nat.le_refl (256 ^ 63)) hlarge

end KeyMaterial

end TokenAuthority

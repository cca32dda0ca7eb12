import TokenAuthority.Crypto.Der
import TokenAuthority.Crypto.Ecdsa
import TokenAuthority.Crypto.Edwards
import TokenAuthority.Crypto.Rsa

/-!
# The halves of a key pair

Private and public keys of the three kinds, and their written forms: PKCS #8 for a
private key and SPKI for a public one. Reading looks at the first item only and lets
further octets stand behind it.

An RSA key for the salted filling alone has a name of its own, with what the key is bound
to, and a point has three forms. Both are kept, and written again as they were read.
-/

namespace TokenAuthority

/-- A private key. -/
inductive PrivateKey where
  | rsa (key : Rsa.PrivateKey)
  | ec (key : Ecdsa.PrivateKey)
  | edwards (secret : Bytes)
  deriving DecidableEq, Repr

/-- A public key. -/
inductive PublicKey where
  | rsa (key : Rsa.PublicKey)
  | ec (key : Ecdsa.PublicKey)
  | edwards (point : Bytes)
  deriving DecidableEq, Repr

/-- The public half. -/
def PrivateKey.toPublic : PrivateKey → PublicKey
  | rsa k => .rsa k.toPublic
  | ec k => .ec k.toPublic
  | edwards secret => .edwards (Edwards.publicOf secret)

/-- Whether two public keys are of one kind and have the same numbers. How a point is written
and what a key is bound to does not count. -/
def PublicKey.isSame : PublicKey → PublicKey → Bool
  | rsa k, rsa l => k.modulus == l.modulus && k.exponent == l.exponent &&
      k.use.isAny == l.use.isAny
  | ec k, ec l => k.curve == l.curve && k.x == l.x && k.y == l.y
  | edwards p, edwards q => p == q
  | _, _ => false

namespace KeyForm

/-! ### Names -/

/-- The name of RSA keys. -/
def rsaName : Bytes := [0x2a, 0x86, 0x48, 0x86, 0xf7, 0x0d, 0x01, 0x01, 0x01]

/-- The name of RSA keys for the salted filling. -/
def saltedName : Bytes := [0x2a, 0x86, 0x48, 0x86, 0xf7, 0x0d, 0x01, 0x01, 0x0a]

/-- The name of the mask of the salted filling. -/
def maskName : Bytes := [0x2a, 0x86, 0x48, 0x86, 0xf7, 0x0d, 0x01, 0x01, 0x08]

/-- The name of a digest. -/
def digestName : Rsa.BoundDigest → Bytes
  | .sha1 => [0x2b, 0x0e, 0x03, 0x02, 0x1a]
  | .sha224 => [0x60, 0x86, 0x48, 0x01, 0x65, 0x03, 0x04, 0x02, 0x04]
  | .usual .sha256 => [0x60, 0x86, 0x48, 0x01, 0x65, 0x03, 0x04, 0x02, 0x01]
  | .usual .sha384 => [0x60, 0x86, 0x48, 0x01, 0x65, 0x03, 0x04, 0x02, 0x02]
  | .usual .sha512 => [0x60, 0x86, 0x48, 0x01, 0x65, 0x03, 0x04, 0x02, 0x03]
  | .sha512Cut224 => [0x60, 0x86, 0x48, 0x01, 0x65, 0x03, 0x04, 0x02, 0x05]
  | .sha512Cut256 => [0x60, 0x86, 0x48, 0x01, 0x65, 0x03, 0x04, 0x02, 0x06]

/-- The digest with a name. -/
def digest? (name : Bytes) : Option Rsa.BoundDigest :=
  [.sha1, .sha224, .usual .sha256, .usual .sha384, .usual .sha512, .sha512Cut224,
    .sha512Cut256].find? fun d => digestName d == name

/-- The name of keys on a curve. -/
def ecName : Bytes := [0x2a, 0x86, 0x48, 0xce, 0x3d, 0x02, 0x01]

/-- The name of keys on the Edwards curve. -/
def edwardsName : Bytes := [0x2b, 0x65, 0x70]

/-- The name of a curve. -/
def curveName : Curve → Bytes
  | .p256 => [0x2a, 0x86, 0x48, 0xce, 0x3d, 0x03, 0x01, 0x07]
  | .p384 => [0x2b, 0x81, 0x04, 0x00, 0x22]
  | .p521 => [0x2b, 0x81, 0x04, 0x00, 0x23]
  | .k256 => [0x2b, 0x81, 0x04, 0x00, 0x0a]

/-- The curve with a name. -/
def curve? (name : Bytes) : Option Curve :=
  [Curve.p256, .p384, .p521, .k256].find? fun c => curveName c == name

/-! ### Limits -/

/-- A digest with an empty parameter. -/
def digestForm (d : Rsa.BoundDigest) : Bytes :=
  Der.sequence [Der.item Der.nameTag (digestName d), Der.item Der.nullTag []]

/-- The part of a sequence with a number, which is left out for one value. -/
def partUnless {α : Type} [DecidableEq α] (n : Nat) (usual : α) (write : α → Bytes) (a : α) :
    List Bytes :=
  if a = usual then [] else [Der.item (Der.partTag n) (write a)]

/-- What a key is bound to. -/
def limits (l : Rsa.Limits) : Bytes :=
  Der.sequence (partUnless 0 .sha1 digestForm l.digest ++
    partUnless 1 .sha1 (fun d => Der.sequence [Der.item Der.nameTag maskName, digestForm d])
      l.maskDigest ++
    partUnless 2 20 Der.integer l.leastSalt)

/-- A digest, whatever single parameter it has. -/
def digestForm? (bs : Bytes) : Option Rsa.BoundDigest := do
  let (content, []) ← Der.item? Der.sequenceTag bs | none
  let (name, parameter) ← Der.item? Der.nameTag content
  if parameter ≠ [] then
    let (_, _, []) ← Der.anyItem? parameter | none
  digest? name

/-- The digest of a mask. -/
def maskForm? (bs : Bytes) : Option Rsa.BoundDigest := do
  let (content, []) ← Der.item? Der.sequenceTag bs | none
  let (name, parameter) ← Der.item? Der.nameTag content
  if name = maskName then digestForm? parameter else none

/-- A number in its shortest form, without a sign and below `2 ^ 31`. -/
def smallNumber? (bs : Bytes) : Option Nat := do
  let (n, []) ← Der.natural? bs | none
  if Der.integer n = bs ∧ n < 1 <<< 31 then some n else none

/-- The part of a sequence with a number, read if it is there, and what follows it. -/
def partOr {α : Type} (n : Nat) (usual : α) (read : Bytes → Option α) (bs : Bytes) :
    Option (α × Bytes) :=
  match Der.item? (Der.partTag n) bs with
  | some (content, rest) => (read content).map fun a => (a, rest)
  | none => some (usual, bs)

/-- What a key is bound to. There is one trailer only. -/
def limits? (bs : Bytes) : Option Rsa.Limits := do
  let (content, []) ← Der.item? Der.sequenceTag bs | none
  let (d, content) ← partOr 0 .sha1 digestForm? content
  let (mask, content) ← partOr 1 .sha1 maskForm? content
  let (salt, content) ← partOr 2 20 smallNumber? content
  let (trailer, []) ← partOr 3 1 smallNumber? content | none
  if trailer = 1 then some ⟨d, mask, salt⟩ else none

/-! ### Kinds -/

/-- The kinds of keys, as named in front of a key. -/
inductive Kind where
  | rsa (use : Rsa.Use)
  | ec (curve : Curve)
  | edwards

/-- The name of a kind and its parameter. -/
def kind : Kind → Bytes
  | .rsa .any => Der.sequence [Der.item Der.nameTag rsaName, Der.item Der.nullTag []]
  | .rsa (.salted none) => Der.sequence [Der.item Der.nameTag saltedName]
  | .rsa (.salted (some l)) => Der.sequence [Der.item Der.nameTag saltedName, limits l]
  | .ec c => Der.sequence [Der.item Der.nameTag ecName, Der.item Der.nameTag (curveName c)]
  | .edwards => Der.sequence [Der.item Der.nameTag edwardsName]

/-- The curve that a parameter names. -/
def namedCurve? (parameter : Bytes) : Option Curve := do
  let (name, []) ← Der.item? Der.nameTag parameter | none
  curve? name

/-- Whether the parameter of an RSA key can be passed over: nothing, or a single item. -/
def isRsaParameter (bs : Bytes) : Bool :=
  match bs, Der.anyItem? bs with
  | [], _ => true
  | _, some (tag, content, []) => tag != Der.nullTag || content.isEmpty
  | _, _ => false

/-- The kind named first, and what follows it. -/
def kind? (bs : Bytes) : Option (Kind × Bytes) := do
  let (content, rest) ← Der.item? Der.sequenceTag bs
  let (name, parameter) ← Der.item? Der.nameTag content
  if name = rsaName ∧ isRsaParameter parameter then return (.rsa .any, rest)
  else if name = saltedName then
    if parameter = [] then return (.rsa (.salted none), rest)
    else return (.rsa (.salted (some (← limits? parameter))), rest)
  else if name = ecName then return (.ec (← namedCurve? parameter), rest)
  else if name = edwardsName ∧ parameter = [] then return (.edwards, rest)
  else none

/-! ### Points -/

/-- A point behind an octet that tells its form, and the last binary digit of the second
coordinate where that counts. -/
def point (c : Curve) (form : Ecdsa.PointForm) (x y : Nat) : Bytes :=
  let first := Bytes.ofNatBE c.fieldSize x
  let second := Bytes.ofNatBE c.fieldSize y
  match form with
  | .plain => 0x04 :: (first ++ second)
  | .short => UInt8.ofNat (0x02 + y % 2) :: first
  | .both => UInt8.ofNat (0x06 + y % 2) :: (first ++ second)

/-- The second coordinate of a point with a last binary digit. -/
def secondOf (c : Curve) (x odd : Nat) : Nat :=
  let y := c.root x
  if y % 2 = odd then y else c.params.field - y

/-- The coordinates of a point of the curve, and the form they are written in. -/
def point? (c : Curve) (bs : Bytes) : Option (Nat × Nat × Ecdsa.PointForm) := do
  let tag ← bs.head?
  let coordinates := bs.drop 1
  let x := Bytes.toNatBE (coordinates.take c.fieldSize)
  let y := Bytes.toNatBE (coordinates.drop c.fieldSize)
  let both := coordinates.length = 2 * c.fieldSize ∧ c.contains x y
  let odd := tag.toNat % 2
  if tag = 0x04 then
    if both then some (x, y, .plain) else none
  else if tag = 0x02 ∨ tag = 0x03 then
    let y := secondOf c x odd
    if coordinates.length = c.fieldSize ∧ c.contains x y then some (x, y, .short) else none
  else if tag = 0x06 ∨ tag = 0x07 then
    if both ∧ y % 2 = odd then some (x, y, .both) else none
  else none

end KeyForm

namespace PrivateKey

open Der KeyForm

/-- The kind of key and what its form holds besides. -/
def parts : PrivateKey → Kind × Bytes
  | rsa k =>
    (.rsa k.use, sequence ((0 :: [k.modulus, k.exponent, k.secret, k.first, k.second,
      k.firstExponent, k.secondExponent, k.coefficient]).map integer))
  | ec k =>
    (.ec k.curve, sequence (
      [integer 1, item octetStringTag (Bytes.ofNatBE k.curve.orderSize k.secret)] ++
      if k.pointWritten then [item (partTag 1) (bitString (point k.curve k.form k.x k.y))] else []))
  | edwards secret => (.edwards, item octetStringTag secret)

/-- The PKCS #8 form of a private key. -/
def toPkcs8 (k : PrivateKey) : Bytes :=
  let (name, content) := k.parts
  sequence [integer 0, kind name, item octetStringTag content]

/-- An RSA key from its numbers. -/
def rsaOfContent? (use : Rsa.Use) (content : Bytes) : Option PrivateKey := do
  let (body, _) ← item? sequenceTag content
  match ← naturals? 9 body with
  | ([0, n, e, d, p, q, dp, dq, c], []) => some (.rsa ⟨n, e, d, p, q, dp, dq, c, use⟩)
  | _ => none

/-- A key on a curve from its secret and, if it is there, its point. A curve that is named
here goes before the one that is named in front. -/
def ecOfContent? (c : Curve) (content : Bytes) : Option PrivateKey := do
  let (body, _) ← item? sequenceTag content
  let (version, body) ← natural? body
  let (secret, body) ← item? octetStringTag body
  let (c, body) ← partOr 0 c namedCurve? body
  if version ≠ 1 ∨ Nat.pow 256 c.orderSize ≤ Bytes.toNatBE secret then none
  else if body = [] then
    let k ← Ecdsa.PrivateKey.ofSecret? c (Bytes.toNatBE secret) false
    return .ec k
  else
    let (wrapped, []) ← item? (partTag 1) body | none
    let (octets, _) ← bitString? wrapped
    let (x, y, form) ← point? c octets
    return .ec ⟨c, Bytes.toNatBE secret, x, y, form, true⟩

/-- The private key with a PKCS #8 form. -/
def ofPkcs8? (bs : Bytes) : Option PrivateKey := do
  let (body, _) ← item? sequenceTag bs
  let (name, body) ← kind? (← skipInteger? body)
  let (content, attributes) ← item? octetStringTag body
  if attributes ≠ [] then
    let (_, []) ← item? (partTag 0) attributes | none
  match name with
  | .rsa use => rsaOfContent? use content
  | .ec c => ecOfContent? c content
  | .edwards =>
    let (secret, _) ← item? octetStringTag content
    if secret.length = 32 then some (.edwards secret) else none

end PrivateKey

namespace PublicKey

open Der KeyForm

/-- The SPKI form of a public key. -/
def toSpki : PublicKey → Bytes
  | rsa k =>
    sequence [kind (.rsa k.use), bitString (sequence [integer k.modulus, integer k.exponent])]
  | ec k => sequence [kind (.ec k.curve), bitString (point k.curve k.form k.x k.y)]
  | edwards p => sequence [kind .edwards, bitString p]

/-- The public key with an SPKI form. -/
def ofSpki? (bs : Bytes) : Option PublicKey := do
  let (body, _) ← item? sequenceTag bs
  let (name, body) ← kind? body
  let (octets, []) ← bitString? body | none
  match name with
  | .rsa use =>
    let (numbers, _) ← item? sequenceTag octets
    match ← naturals? 2 numbers with
    | ([n, e], []) => some (.rsa ⟨n, e, use⟩)
    | _ => none
  | .ec c =>
    let (x, y, form) ← point? c octets
    return .ec ⟨c, x, y, form⟩
  | .edwards => if octets.length = 32 then some (.edwards octets) else none

/-- How many binary digits the numbers of a key have. -/
def bits : PublicKey → Nat
  | rsa k => k.bits
  | ec k => Modular.bits k.curve.params.order
  | edwards _ => 256

end PublicKey

end TokenAuthority

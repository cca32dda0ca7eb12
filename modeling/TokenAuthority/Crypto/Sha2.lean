import TokenAuthority.Bytes

/-!
# The SHA-2 digests

SHA-256, SHA-384 and SHA-512. The two families share their structure and differ in
the word, the rotation amounts and the number of rounds, which `Word` collects. No
constant is written down: the round constants are the fractions of the cube roots,
and the initial states the fractions of the square roots, of the first primes, and
`fraction` computes them.
-/

namespace TokenAuthority.Sha2

/-! ### Constants -/

/-- The first eighty primes. -/
def primes : List Nat :=
  (List.range 410).filter fun n => 2 ≤ n && (List.range n).all fun d => d < 2 || n % d != 0

/-- The largest number below `2 ^ bits` whose `k`-th power is at most `n`, bit by bit. -/
def root (k n : Nat) : Nat → Nat → Nat
  | 0, r => r
  | bits + 1, r =>
    let next := r + 1 <<< bits
    root k n bits (if Nat.pow next k ≤ n then next else r)

/-- The first `w` bits of the fraction of the `k`-th root of `p`. -/
def fraction (k w p : Nat) : Nat :=
  root k (p <<< (k * w)) (w + 10) 0 % 1 <<< w

/-! ### Words -/

/-- What a family of digests chooses: the word, the four mixing functions and the
round constants. -/
class Word (w : Type) where
  /-- Octets of a word. -/
  octets : Nat
  ofNat : Nat → w
  toNat : w → Nat
  add : w → w → w
  /-- Bit by bit, the second argument where the first is set, else the third. -/
  choose : w → w → w → w
  /-- Bit by bit, what two of the three arguments have. -/
  majority : w → w → w → w
  /-- The mixing of the running state. -/
  mixA : w → w
  mixE : w → w
  /-- The mixing of the message schedule. -/
  spread0 : w → w
  spread1 : w → w
  /-- One constant a round. -/
  rounds : List w

/-- A 32-bit word turned right. -/
def turn32 (x : UInt32) (n : UInt32) : UInt32 := (x >>> n) ||| (x <<< (32 - n))

/-- A 64-bit word turned right. -/
def turn64 (x : UInt64) (n : UInt64) : UInt64 := (x >>> n) ||| (x <<< (64 - n))

/-- The round constants of the 32-bit family. -/
def rounds32 : List UInt32 := (primes.take 64).map fun p => UInt32.ofNat (fraction 3 32 p)

/-- The round constants of the 64-bit family. -/
def rounds64 : List UInt64 := primes.map fun p => UInt64.ofNat (fraction 3 64 p)

instance : Word UInt32 where
  octets := 4
  ofNat := UInt32.ofNat
  toNat := UInt32.toNat
  add := (· + ·)
  choose x y z := (x &&& y) ^^^ (~~~x &&& z)
  majority x y z := (x &&& y) ^^^ (x &&& z) ^^^ (y &&& z)
  mixA x := turn32 x 2 ^^^ turn32 x 13 ^^^ turn32 x 22
  mixE x := turn32 x 6 ^^^ turn32 x 11 ^^^ turn32 x 25
  spread0 x := turn32 x 7 ^^^ turn32 x 18 ^^^ (x >>> 3)
  spread1 x := turn32 x 17 ^^^ turn32 x 19 ^^^ (x >>> 10)
  rounds := rounds32

instance : Word UInt64 where
  octets := 8
  ofNat := UInt64.ofNat
  toNat := UInt64.toNat
  add := (· + ·)
  choose x y z := (x &&& y) ^^^ (~~~x &&& z)
  majority x y z := (x &&& y) ^^^ (x &&& z) ^^^ (y &&& z)
  mixA x := turn64 x 28 ^^^ turn64 x 34 ^^^ turn64 x 39
  mixE x := turn64 x 14 ^^^ turn64 x 18 ^^^ turn64 x 41
  spread0 x := turn64 x 1 ^^^ turn64 x 8 ^^^ (x >>> 7)
  spread1 x := turn64 x 19 ^^^ turn64 x 61 ^^^ (x >>> 6)
  rounds := rounds64

/-! ### Digesting -/

variable {w : Type} [Word w]

/-- The eight words that a digest carries from block to block. -/
structure State (w : Type) where
  a : w
  b : w
  c : w
  d : w
  e : w
  f : w
  g : w
  h : w

namespace State

/-- The eight words in order. -/
def toList (s : State w) : List w := [s.a, s.b, s.c, s.d, s.e, s.f, s.g, s.h]

/-- The state whose words are given by a list; missing words are zero. -/
def ofList (ws : List w) : State w :=
  let at' (i : Nat) := ws.getD i (Word.ofNat 0)
  ⟨at' 0, at' 1, at' 2, at' 3, at' 4, at' 5, at' 6, at' 7⟩

/-- Word by word sums. -/
def add (s t : State w) : State w :=
  ofList (List.zipWith Word.add s.toList t.toList)

/-- One round with a round constant and a word of the schedule. -/
@[specialize] def round (s : State w) (k x : w) : State w :=
  let t1 := Word.add (Word.add (Word.add s.h (Word.mixE s.e))
    (Word.add (Word.choose s.e s.f s.g) k)) x
  let t2 := Word.add (Word.mixA s.a) (Word.majority s.a s.b s.c)
  ⟨Word.add t1 t2, s.a, s.b, s.c, Word.add s.d t1, s.e, s.f, s.g⟩

end State

/-- The word of the schedule that follows the last sixteen. -/
def following (window : List w) : w :=
  let at' (i : Nat) := window.getD i (Word.ofNat 0)
  Word.add (Word.add (Word.spread1 (at' 14)) (at' 9)) (Word.add (Word.spread0 (at' 1)) (at' 0))

/-- The rounds with the given constants; `window` holds the next sixteen words of
the schedule. -/
@[specialize] def run : List w → List w → State w → State w
  | [], _, s => s
  | k :: ks, window, s =>
    run ks (window.tail ++ [following window]) (s.round k (window.headD (Word.ofNat 0)))

/-- The message with its end marked, filled up to whole blocks, and its length in bits. -/
def padded (w : Type) [Word w] (message : Bytes) : Bytes :=
  let block := 16 * Word.octets w
  let used := (message.length + 1 + 2 * Word.octets w) % block
  message ++ 0x80 :: (List.replicate ((block - used) % block) 0 ++
    Bytes.ofNatBE (2 * Word.octets w) (8 * message.length))

/-- The words of a block. -/
def wordsOf (block : Bytes) : List w :=
  (Bytes.pieces (Word.octets w - 1) block).map fun bs => Word.ofNat (Bytes.toNatBE bs)

/-- All blocks of a message taken in, from an initial state. -/
@[specialize] def absorb (initial : State w) (message : Bytes) : State w :=
  (Bytes.pieces (16 * Word.octets w - 1) (padded w message)).foldl
    (fun s block => s.add (run Word.rounds (wordsOf block) s)) initial

/-- The octets of a state. -/
def State.octets (s : State w) : Bytes :=
  s.toList.flatMap fun x => Bytes.ofNatBE (Word.octets w) (Word.toNat x)

/-- The initial state of SHA-256. -/
def initial256 : State UInt32 :=
  .ofList ((primes.take 8).map fun p => UInt32.ofNat (fraction 2 32 p))

/-- The initial state of SHA-384. -/
def initial384 : State UInt64 :=
  .ofList (((primes.drop 8).take 8).map fun p => UInt64.ofNat (fraction 2 64 p))

/-- The initial state of SHA-512. -/
def initial512 : State UInt64 :=
  .ofList ((primes.take 8).map fun p => UInt64.ofNat (fraction 2 64 p))

/-- The SHA-256 digest. -/
def sha256 (message : Bytes) : Bytes := (absorb initial256 message).octets

/-- The SHA-384 digest: the first 48 octets of the 64-bit family's state. -/
def sha384 (message : Bytes) : Bytes := (absorb initial384 message).octets.take 48

/-- The SHA-512 digest. -/
def sha512 (message : Bytes) : Bytes := (absorb initial512 message).octets

end TokenAuthority.Sha2

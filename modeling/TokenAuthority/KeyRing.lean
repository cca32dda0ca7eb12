import TokenAuthority.KeyStore
import TokenAuthority.Surroundings

/-!
# Key rings

A ring holds a bounded number of keys, the newest first. The newest is the current one,
and the store of the ring keeps it; a key is kept there before it enters the ring. When
the ring is full the oldest key leaves it.

An operation says what the ring is afterwards also when it fails. Room for all places of a ring
is asked for together with a key, and where memory cannot have so much the program ends; so an
operation that comes out with a ring that is not allocated never comes out.
-/

namespace TokenAuthority

/-- Keys for one algorithm, the newest first. -/
structure KeyRing where
  algorithm : Algorithm
  capacity : Nat
  keys : List SigningKey
  capacity_pos : 0 < capacity
  length_le : keys.length ≤ capacity

namespace KeyRing

/-- A ring without keys. -/
def empty (a : Algorithm) (capacity : Nat) : Except AuthError KeyRing :=
  if h : 0 < capacity then .ok ⟨a, capacity, [], h, Nat.zero_le _⟩
  else .error (.configuration .emptyRing)

/-- How many keys a ring holds. -/
def size (r : KeyRing) : Nat := r.keys.length

/-- The newest key with an identifier. -/
def find? (r : KeyRing) (id : String) : Option SigningKey :=
  r.keys.find? fun k => k.id == id

/-- The ring with a key in front; the oldest makes room if there is none. -/
def install (r : KeyRing) (k : SigningKey) : KeyRing where
  algorithm := r.algorithm
  capacity := r.capacity
  keys := k :: r.keys.take (r.capacity - 1)
  capacity_pos := r.capacity_pos
  length_le := by
    have := r.capacity_pos
    simp only [List.length_cons, List.length_take]
    omega

theorem keys_install (r : KeyRing) (k : SigningKey) :
    (r.install k).keys = (k :: r.keys).take r.capacity := by
  have := r.capacity_pos
  obtain ⟨n, hn⟩ : ∃ n, r.capacity = n + 1 := ⟨r.capacity - 1, by omega⟩
  simp [install, hn]

/-- The most places that memory can have: each takes eight octets, of which there are fewer than
`2 ^ 63`. -/
def mostPlaces : Nat := 1152921504606846975

/-- Whether memory can have the places of a ring, for which it is asked when a key comes in. -/
def isAllocated (r : KeyRing) : Bool := r.keys.isEmpty || r.capacity ≤ mostPlaces

/-- The ring without its keys. -/
def cleared (r : KeyRing) : KeyRing where
  algorithm := r.algorithm
  capacity := r.capacity
  keys := []
  capacity_pos := r.capacity_pos
  length_le := Nat.zero_le _

/-! ### Operations with a store -/

section

variable {m : Type → Type} [Monad m] (s : Surroundings m) (store : KeyStore m)

/-- What an operation answers, and the ring after it. -/
abbrev Outcome (α : Type) := Except AuthError α × KeyRing

/-- Keeps a key in the store and installs it. -/
def adopt (r : KeyRing) (k : SigningKey) : m (Outcome SigningKey) := do
  match ← store.activate k with
  | .ok () => return (.ok k, r.install k)
  | .error e => return (.error e, r)

/-- A fresh key for an algorithm. -/
def freshKey (a : Algorithm) : m (Except AuthError SigningKey) := do
  let now ← s.now
  let random ← s.draw SigningKey.randomSize
  return (SigningKey.generate a now random).mapError AuthError.cryptographic

/-- Makes a new current key. -/
def rotate (r : KeyRing) : m (Outcome SigningKey) := do
  match ← freshKey s r.algorithm with
  | .ok k => r.adopt store k
  | .error e => return (.error e, r)

/-- The current key, made on the spot if the ring has none. -/
def current (r : KeyRing) : m (Outcome SigningKey) :=
  match r.keys with
  | k :: _ => return (.ok k, r)
  | [] => r.rotate s store

/-- Makes a given key the current one. -/
def push (r : KeyRing) (k : SigningKey) : m (Outcome SigningKey) :=
  if k.algorithm = r.algorithm then r.adopt store k
  else return (.error (.configuration (.wrongAlgorithm k.algorithm r.algorithm)), r)

/-- Drops all keys, the one in the store first. -/
def clear (r : KeyRing) : m (Outcome Unit) := do
  match ← store.discard with
  | .ok () => return (.ok (), r.cleared)
  | .error e => return (.error e, r)

/-- A ring with one key: the one in the store, or a fresh one. -/
def seeded (a : Algorithm) (capacity : Nat) : m (Except AuthError KeyRing) := do
  match empty a capacity with
  | .error e => return .error e
  | .ok r =>
    match ← store.load a with
    | .error e => return .error e
    | .ok (some k) => return .ok (r.install k)
    | .ok none =>
      match ← r.rotate s store with
      | (.ok _, r) => return .ok r
      | (.error e, _) => return .error e

end

end KeyRing

end TokenAuthority

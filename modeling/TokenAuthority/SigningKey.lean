import TokenAuthority.AuthError
import TokenAuthority.KeyMaterial
import TokenAuthority.Text.Uuid

/-!
# Signing keys

A key has an identifier, an algorithm, the instant of its making, and material that
suits the algorithm. A fresh key is made from an instant and octets drawn at random.
-/

namespace TokenAuthority

/-- A key that signs tokens. -/
structure SigningKey where
  id : String
  algorithm : Algorithm
  created : Instant
  material : KeyMaterial
  /-- The material can be used with the algorithm. -/
  suits : material.checkSuits algorithm = .ok ()

namespace SigningKey

/-- The key with the given parts, whose material has to suit the algorithm. -/
def ofParts (id : String) (a : Algorithm) (created : Instant) (m : KeyMaterial) :
    Except KeyError SigningKey :=
  match h : m.checkSuits a with
  | .ok () => .ok ⟨id, a, created, m, h⟩
  | .error e => .error e

theorem ofParts_eq_error_iff {id : String} {a : Algorithm} {t : Instant} {m : KeyMaterial}
    {e : KeyError} : ofParts id a t m = .error e ↔ m.checkSuits a = .error e := by
  unfold ofParts
  split <;> simp_all

/-- The parts are kept. -/
theorem parts_of_ofParts {id : String} {a : Algorithm} {t : Instant} {m : KeyMaterial}
    {k : SigningKey} (h : ofParts id a t m = .ok k) :
    k.id = id ∧ k.algorithm = a ∧ k.created = t ∧ k.material = m := by
  unfold ofParts at h
  split at h
  · cases h; simp
  · cases h

/-- How many octets at random a fresh key takes. -/
def randomSize : Nat := Uuid.randomSize + 64

/-- A fresh key for an algorithm, made at an instant with octets drawn at random. -/
def generate (a : Algorithm) (now : Moment) (random : Bytes) : Except KeyError SigningKey :=
  ofParts (Uuid.timed now random) a now
    (KeyMaterial.generate a (random.drop Uuid.randomSize))

end SigningKey

end TokenAuthority

import TokenAuthority.Bytes
import TokenAuthority.Time.Instant

/-!
# What surrounds the library

The clock and the source of octets at random. They are given in any monad: a program
takes those of the system, and a proof those of a machine whose state it can see.
-/

namespace TokenAuthority

/-- A clock and a source of octets at random. -/
structure Surroundings (m : Type → Type) where
  now : m Moment
  /-- So many octets drawn at random. -/
  draw : Nat → m Bytes

/-- The same surroundings, in another monad. -/
def Surroundings.lift {m n : Type → Type} (f : {α : Type} → m α → n α) (s : Surroundings m) :
    Surroundings n where
  now := f s.now
  draw size := f (s.draw size)

end TokenAuthority

import TokenAuthority.Text.Hex
import TokenAuthority.Time.Instant

/-!
# Identifiers in order of time

The identifiers of version 7: the milliseconds since the beginning of 1970, and behind
them octets drawn at random, in which six binary digits say which version this is. They
are written as five groups of hexadecimal digits.
-/

namespace TokenAuthority.Uuid

/-- How many octets at random an identifier takes. -/
def randomSize : Nat := 10

/-- The sixteen octets of an identifier. -/
def octets (t : Moment) (random : Bytes) : Bytes :=
  let milliseconds := (t.seconds * 1000 + t.nanos / 1000000).toNat
  let version := (random.getD 0 0).toNat % 16 + 0x70
  let variant := (random.getD 2 0).toNat % 64 + 0x80
  Bytes.ofNatBE 6 milliseconds ++ UInt8.ofNat version :: random.getD 1 0 ::
    UInt8.ofNat variant :: (random.drop 3).take 7

/-- The octets in five groups of digits. -/
def write (bs : Bytes) : String :=
  let digits := Hex.encode bs
  String.ofList (digits.take 8 ++ '-' :: (digits.drop 8).take 4 ++ '-' :: (digits.drop 12).take 4 ++
    '-' :: (digits.drop 16).take 4 ++ '-' :: digits.drop 20)

/-- The identifier of an instant, made with octets drawn at random. -/
def timed (t : Moment) (random : Bytes) : String :=
  write (octets t random)

/-- No identifier is empty, whatever was drawn. -/
theorem timed_ne_empty (t : Moment) (random : Bytes) : timed t random ≠ "" := by
  intro h
  have := congrArg String.toList h
  simp [timed, write] at this

end TokenAuthority.Uuid

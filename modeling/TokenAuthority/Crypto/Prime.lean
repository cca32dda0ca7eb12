import TokenAuthority.Crypto.Modular

/-!
# Looking for primes

A number is taken for a prime if no small prime divides it and it passes the strong
test of Miller and Rabin to a list of bases. A composite of the size used here passes
with negligible probability.
-/

namespace TokenAuthority.Prime

/-- The small primes tried as divisors. -/
def small : List Nat :=
  (List.range 1000).filter fun n => 2 ≤ n && (List.range 32).all fun d => d < 2 || n % d != 0 || n == d

/-- The number without its factors of two, and how many there were. -/
def oddPart (n : Nat) : Nat × Nat :=
  if n = 0 then (0, 0)
  else if n % 2 = 0 then let (d, k) := oddPart (n / 2); (d, k + 1)
  else (n, 0)
termination_by n
decreasing_by omega

/-- Whether one of `x, x ^ 2, x ^ 4, …`, `k` of them, is `n - 1`. -/
def reachesMinusOne (n : Nat) : Nat → Nat → Bool
  | 0, _ => false
  | k + 1, x => x == n - 1 || reachesMinusOne n k (x * x % n)

/-- The strong test of `n` to one base. -/
def passes (n base : Nat) : Bool :=
  let (d, k) := oddPart (n - 1)
  let x := Modular.pow n base d
  x == 1 || reachesMinusOne n k x

/-- Whether a number is taken for a prime. -/
def probable (n : Nat) : Bool :=
  (small.all fun p => n % p != 0) && (small.take 12).all (passes n)

/-- The first number from `n` on, in steps of two, that is taken for a prime; the last
one looked at if there is none among so many. -/
def search : Nat → Nat → Nat
  | 0, n => n
  | fuel + 1, n => if probable n then n else search fuel (n + 2)

end TokenAuthority.Prime

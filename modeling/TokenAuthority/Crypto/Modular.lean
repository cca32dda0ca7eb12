/-!
# Arithmetic modulo a number

Powers by squaring, and inverses by the extended Euclidean algorithm.
-/

namespace TokenAuthority.Modular

/-- The power `b ^ e` modulo `m`. -/
def pow (m b e : Nat) : Nat :=
  if e = 0 then 1 % m
  else
    let half := pow m (b * b % m) (e / 2)
    if e % 2 = 1 then b * half % m else half
termination_by e
decreasing_by omega

/-- The extended Euclidean algorithm on `(r, s)` with the multiples `(x, y)` of the number
to invert that they are congruent to; the answer is the multiple of their divisor. -/
def bezout (r s : Nat) (x y : Int) : Int :=
  if s = 0 then x else bezout s (r % s) y (x - (r / s : Nat) * y)
termination_by s
decreasing_by exact Nat.mod_lt _ (by omega)

/-- The inverse of `a` modulo `m`, for an `a` that shares no divisor with `m`. -/
def inverse (m a : Nat) : Nat :=
  (bezout (a % m) m 1 0 % m).toNat

/-- The difference modulo `m` of two numbers below `m`. -/
def sub (m a b : Nat) : Nat :=
  (a + (m - b)) % m

/-- How many binary digits a number has. -/
def bits (n : Nat) : Nat :=
  if n = 0 then 0 else n.log2 + 1

end TokenAuthority.Modular

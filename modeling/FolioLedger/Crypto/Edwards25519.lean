/-!
# The curve edwards25519

Arithmetic modulo `2 ^ 255 - 19` and the group of points on the twisted Edwards curve
`-x² + y² = 1 + d x² y²`.  Points are kept in extended coordinates, which add without division.
-/

namespace FolioLedger

namespace Field25519

/-- The prime of the field. -/
def prime : Nat := (1 <<< 255) - 19

def add (a b : Nat) : Nat := (a + b) % prime

def sub (a b : Nat) : Nat := (a + prime - b) % prime

def mul (a b : Nat) : Nat := a * b % prime

/-- The power of a number, by squaring along the bits of the exponent. -/
def pow (a exponent : Nat) : Nat :=
  (List.range 256).reverse.foldl (fun acc i =>
    let square := mul acc acc
    if exponent.testBit i then mul square a else square) 1

/-- The inverse of a number that is not zero. -/
def inv (a : Nat) : Nat := pow a (prime - 2)

/-- A square root of -1. -/
def rootOfMinusOne : Nat := pow 2 ((prime - 1) / 4)

/-- The even square root of `u / v`, if there is one. -/
def sqrtRatio? (u v : Nat) : Option Nat :=
  let v3 := mul (mul v v) v
  let v7 := mul (mul v3 v3) v
  let root := mul (mul u v3) (pow (mul u v7) ((prime - 5) / 8))
  let check := mul v (mul root root)
  let root? :=
    if check = u then some root
    else if check = sub 0 u then some (mul root rootOfMinusOne)
    else none
  root?.map fun r => if r % 2 = 1 then sub 0 r else r

end Field25519

open Field25519

/-- The number that bytes denote, the least significant first. -/
def littleEndian (bytes : List UInt8) : Nat :=
  bytes.foldr (fun b n => n * 256 + b.toNat) 0

/-- The bytes of a number, the least significant first. -/
def littleEndianBytes : Nat → Nat → List UInt8
  | 0, _ => []
  | count + 1, n => UInt8.ofNat n :: littleEndianBytes count (n / 256)

/-- A point of the curve: `x / z`, `y / z`, with `t = x y / z`. -/
structure CurvePoint where
  x : Nat
  y : Nat
  z : Nat
  t : Nat
deriving DecidableEq

namespace CurvePoint

/-- The constant of the curve. -/
def d : Nat := mul (sub 0 121665) (inv 121666)

/-- The neutral point. -/
def zero : CurvePoint := ⟨0, 1, 1, 0⟩

/-- The sum of two points. -/
def add (p q : CurvePoint) : CurvePoint :=
  let a := mul (sub p.y p.x) (sub q.y q.x)
  let b := mul (Field25519.add p.y p.x) (Field25519.add q.y q.x)
  let c := mul (mul (mul 2 d) p.t) q.t
  let e := mul (mul 2 p.z) q.z
  let f := sub b a
  let g := sub e c
  let h := Field25519.add e c
  let i := Field25519.add b a
  ⟨mul f g, mul h i, mul g h, mul f i⟩

/-- The point mirrored in `x`. -/
def neg (p : CurvePoint) : CurvePoint :=
  ⟨sub 0 p.x, p.y, p.z, sub 0 p.t⟩

/-- A multiple of a point, by doubling along the bits of the factor. -/
def smul (n : Nat) (p : CurvePoint) : CurvePoint :=
  (List.range 256).reverse.foldl (fun acc i =>
    let double := add acc acc
    if n.testBit i then add double p else double) zero

/-- The 32 bytes of a point: `y`, and in the top bit whether `x` is odd. -/
def encode (p : CurvePoint) : List UInt8 :=
  let i := inv p.z
  let x := mul p.x i
  let y := mul p.y i
  littleEndianBytes 32 (y + if x % 2 = 1 then 1 <<< 255 else 0)

/-- The point that 32 bytes denote.  A `y` at or above the prime is taken modulo it. -/
def decode? (bytes : List UInt8) : Option CurvePoint :=
  if bytes.length ≠ 32 then none
  else
    let n := littleEndian bytes
    let y := n % (1 <<< 255) % prime
    let yy := mul y y
    (sqrtRatio? (sub yy 1) (Field25519.add (mul d yy) 1)).map fun root =>
      let x := if n.testBit 255 then sub 0 root else root
      ⟨x, y, 1, mul x y⟩

/-- The base point: `y` is 4/5 and `x` is even. -/
def base : CurvePoint :=
  (decode? (littleEndianBytes 32 (mul 4 (inv 5)))).getD zero

end CurvePoint

end FolioLedger

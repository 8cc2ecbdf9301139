import ParserKit.Decimal.Double
import ParserKit.Text.Digit

/-! The double nearest to a decimal text.  All steps but the last are exact: the text denotes a
ratio of natural numbers, which is rounded once, a tie going to the even neighbour. -/

namespace ParserKit.Decimal

def roundDiv (num den : Nat) : Nat :=
  let q := num / den
  let r := 2 * (num % den)
  if r < den then q else if den < r then q + 1 else q + q % 2

def binaryExponent (num den : Nat) : Int :=
  let k : Int := (num.log2 : Int) - den.log2
  if den * Nat.pow 2 k.toNat ≤ num * Nat.pow 2 (-k).toNat then k else k - 1

/-- The bits of the double nearest to `num / den`; too large a ratio gives infinity.  A double
with exponent `q` and significand `m` has the bits `(q + 1074) * 2 ^ 52 + m`, also when `m` was
rounded up to the next power of two. -/
def nearestBits (num den : Nat) : Nat :=
  if num = 0 then 0
  else
    let q := max (binaryExponent num den - 52) (-1074)
    let m := roundDiv (num * Nat.pow 2 (-q).toNat) (den * Nat.pow 2 q.toNat)
    min ((q + 1074).toNat * hiddenUnit + m) infinityBits

def nearest (num den : Nat) : Float := Float.ofBits (nearestBits num den).toUInt64

def infinity : Float := Float.ofBits infinityBits.toUInt64

/-- The double nearest to `n * 10 ^ e`.  Far out of range the answer is known without computing
the power: `2 ^ k` lies between `10 ^ (k / 4)` and `10 ^ (k / 3 + 1)`. -/
def scaled (n : Nat) (e : Int) : Float :=
  if n = 0 ∨ e + n.log2 / 3 + 2 < -400 then nearest 0 1
  else if 400 < e + n.log2 / 4 then infinity
  else nearest (n * Nat.pow 10 e.toNat) (Nat.pow 10 (-e).toNat)

def ofParts (whole fraction : List Char) : Float :=
  scaled (Text.natOfDigits (whole ++ fraction)) (-(fraction.length : Int))

def signed (negative : Bool) (x : Float) : Float := if negative then -x else x

/-- The double nearest to `a / b`, with the sign of the quotient even if it is zero.  There is none
if the quotient is too large, and none is asked for if `b` is zero. -/
def quotient? (a b : Int) : Option Float :=
  let bits := nearestBits a.natAbs b.natAbs
  if bits = infinityBits then none
  else some (signed (decide (a < 0) != decide (b < 0)) (Float.ofBits bits.toUInt64))

def ofInt? (n : Int) : Option Float := quotient? n 1

end ParserKit.Decimal

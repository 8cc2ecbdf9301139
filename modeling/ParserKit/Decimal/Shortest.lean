import ParserKit.Decimal.Double

/-! The shortest decimal which reads back to a given double, in exact arithmetic, and its layout.

A positive finite double is `m * 2 ^ q`.  The reals which round to it form an interval around it,
which reaches half way to either neighbour and contains its ends when `m` is even.  Grids of one to
seventeen digits are tried in turn; on each the two neighbours of the double are tested. -/

namespace ParserKit.Decimal

/-- The interval of the reals which round to `m * 2 ^ q`, and the double itself, all as numerators
over one denominator. -/
structure Cell where
  low : Nat
  value : Nat
  high : Nat
  denominator : Nat
  closed : Bool

def Cell.of (m : Nat) (q : Int) : Cell :=
  let scale := Nat.pow 2 (q - 2).toNat
  let below := if m = hiddenUnit ∧ -1074 < q then 1 else 2
  ⟨(4 * m - below) * scale, 4 * m * scale, (4 * m + 2) * scale, Nat.pow 2 (2 - q).toNat, m % 2 == 0⟩

def Cell.contains (c : Cell) (n : Nat) (e : Int) : Bool :=
  let x := n * Nat.pow 10 e.toNat * c.denominator
  let scale := Nat.pow 10 (-e).toNat
  if c.closed then c.low * scale ≤ x && x ≤ c.high * scale
  else c.low * scale < x && x < c.high * scale

def Cell.magnitude (c : Cell) : Int :=
  if c.denominator ≤ c.value then (Nat.toDigits 10 (c.value / c.denominator)).length - 1
  else -((Nat.toDigits 10 ((c.denominator - 1) / c.value)).length : Int)

/-- The neighbour of the value among the multiples of `10 ^ e` which lies in the interval; of two
the nearer, of two equally near the even one. -/
def Cell.neighbour? (c : Cell) (e : Int) : Option Nat :=
  let num := c.value * Nat.pow 10 (-e).toNat
  let den := c.denominator * Nat.pow 10 e.toNat
  let n := num / den
  let r := 2 * (num % den)
  match c.contains n e, c.contains (n + 1) e with
  | true, true => some (if r < den then n else if den < r then n + 1 else n + n % 2)
  | true, false => some n
  | false, true => some (n + 1)
  | false, false => none

def Cell.search (c : Cell) (magnitude : Int) : Nat → Nat → Nat × Int
  | _, 0 => (0, 0)
  | digits, tries + 1 =>
    let e := magnitude - digits + 1
    match c.neighbour? e with
    | some n => (n, e)
    | none => c.search magnitude (digits + 1) tries

/-- The shortest decimal `n * 10 ^ e` for the positive double `m * 2 ^ q`. -/
def shortest (m : Nat) (q : Int) : Nat × Int :=
  let c := Cell.of m q
  c.search c.magnitude 1 17

structure Layout where
  least : Int
  bound : Int
  exponentDigits : Nat
  nan : String
  infinity : String

def zeros (n : Nat) : List Char := List.replicate n '0'

def positional (digits : List Char) (exponent : Int) : List Char :=
  if exponent < 0 then '0' :: '.' :: zeros (-exponent - 1).toNat ++ digits
  else
    let whole := exponent.toNat + 1
    let fraction := digits.drop whole
    digits.take whole ++ zeros (whole - digits.length) ++
      '.' :: (if fraction.isEmpty then ['0'] else fraction)

def scientific (layout : Layout) (digits : List Char) (exponent : Int) : List Char :=
  let size := (toString exponent.natAbs).toList
  digits.take 1 ++ (if digits.length ≤ 1 then [] else '.' :: digits.drop 1) ++
    ['e', if exponent < 0 then '-' else '+'] ++ zeros (layout.exponentDigits - size.length) ++ size

def dropTrailingZeros (digits : List Char) : List Char :=
  (digits.reverse.dropWhile (· == '0')).reverse

def write (layout : Layout) (x : Float) : String :=
  match Parts.ofBits x.toBits.toNat with
  | .nan => layout.nan
  | .infinite negative => (if negative then "-" else "") ++ layout.infinity
  | .finite ⟨negative, m, q⟩ =>
    let body :=
      if m = 0 then positional ['0'] 0
      else
        let (n, e) := shortest m q
        let digits := (toString n).toList
        let exponent := e + digits.length - 1
        let digits := dropTrailingZeros digits
        if layout.least ≤ exponent ∧ exponent < layout.bound then positional digits exponent
        else scientific layout digits exponent
    String.ofList (if negative then '-' :: body else body)

end ParserKit.Decimal

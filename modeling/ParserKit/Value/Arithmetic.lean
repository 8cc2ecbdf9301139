import ParserKit.Decimal.Literal
import ParserKit.Value.Basic

/-! Operators on values.  Whole numbers are added, subtracted and multiplied exactly, and truth values
count as zero and one; where a double takes part, whole numbers are rounded to doubles first.
Sequences of one type may be joined by adding them, and repeated by multiplying them. -/

namespace ParserKit

inductive Numeral
  | whole (n : Int)
  | real (x : Float)

namespace Numeral

def toFloat : Numeral → Except Fault Float
  | whole n => match Decimal.ofInt? n with
    | some x => .ok x
    | none => .error .numberTooLarge
  | real x => .ok x

def isNegative : Numeral → Bool
  | whole n => n < 0
  | real x => x < 0

def divide : Numeral → Numeral → Except Fault Float
  | whole a, whole b =>
    if b = 0 then ((whole a).toFloat).map (· / 0)
    else match Decimal.quotient? a b with
      | some x => .ok x
      | none => .error .numberTooLarge
  | a, b => a.toFloat.bind fun x => b.toFloat.map fun y => x / y

end Numeral

namespace Value

def numeral? : Value → Option Numeral
  | bool b => some (.whole (if b then 1 else 0))
  | int n => some (.whole n)
  | float x => some (.real x)
  | _ => none

def combine (f : Int → Int → Int) (g : Float → Float → Float) (v w : Value) : Except Fault Value :=
  match v.numeral?, w.numeral? with
  | some (.whole m), some (.whole n) => .ok (.int (f m n))
  | some a, some b => a.toFloat.bind fun x => b.toFloat.map fun y => .float (g x y)
  | _, _ => .error .notNumber

def plus : Value → Value → Except Fault Value
  | text s, text t => .ok (text (s ++ t))
  | list vs, list ws => .ok (list (vs ++ ws))
  | tuple vs, tuple ws => .ok (tuple (vs ++ ws))
  | v, w => combine (· + ·) (· + ·) v w

def minus (v w : Value) : Except Fault Value := combine (· - ·) (· - ·) v w

def lengthBound : Int := 0x7fffffffffffffff

def memoryBound : Int := 0x10000000000

/-- How often a sequence of the given length is repeated; a negative count is as good as zero. -/
def copies (length : Nat) (count : Int) (beyond : Fault) : Except Fault Nat :=
  if count < -lengthBound - 1 ∨ lengthBound < count then .error .countTooLarge
  else if length = 0 then .ok 0
  else if lengthBound < length * count then .error beyond
  else if memoryBound ≤ length * count then .error .tooLong
  else .ok count.toNat

def repeated (count : Int) : Value → Except Fault Value
  | text s => (copies s.toList.length count .countTooLarge).map fun n =>
    text (String.join (List.replicate n s))
  | list vs => (copies vs.length count .tooLong).map fun n => list (List.replicate n vs).flatten
  | tuple vs => (copies vs.length count .tooLong).map fun n => tuple (List.replicate n vs).flatten
  | _ => .error .notNumber

def times (v w : Value) : Except Fault Value :=
  match v.numeral?, w.numeral? with
  | some (.whole n), none => w.repeated n
  | none, some (.whole n) => v.repeated n
  | _, _ => combine (· * ·) (· * ·) v w

def dividedBy (v w : Value) : Except Fault Value :=
  match v.numeral?, w.numeral? with
  | some a, some b => (a.divide b).map float
  | _, _ => .error .notNumber

def isOdd (v : Value) : Except Fault Bool :=
  match v with
  | text s => match Decimal.read? s with
    | some x => if (wholeOfFloat? x).isSome then .error .notNumber else .ok false
    | none => .error .notDecimal
  | v => match v.numeral? with
    | some (.whole n) => (Numeral.whole n).toFloat.map fun _ => n % 2 == 1
    | some (.real x) => .ok ((wholeOfFloat? x).any (· % 2 == 1))
    | none => .error .notNumber

def infinitePower (negative : Bool) (exponent : Value) : Except Fault Float :=
  if negative then exponent.isOdd.map fun odd => Decimal.signed odd Decimal.infinity
  else .ok Decimal.infinity

/-- A power of doubles.  The sign of an infinity depends on the exponent as it was before it was
rounded. -/
def powerOfFloats (x y : Float) (exponent : Value) : Except Fault Float :=
  let r := Float.pow x y
  if x.isFinite && y.isFinite && r.isInf then
    infinitePower (Decimal.signUnit ≤ x.toBits.toNat) exponent
  else .ok r

/-- A power.  Where the base or the exponent is too large for a double, the power is taken to be out
of range. -/
def power (base exponent : Value) : Except Fault Float :=
  match base.numeral? with
  | none => .error .notNumber
  | some b => match b.toFloat with
    | .error _ => infinitePower b.isNegative exponent
    | .ok x => match exponent.numeral? with
      | none => .error .notNumber
      | some e => match e.toFloat with
        | .error _ => infinitePower b.isNegative exponent
        | .ok y => powerOfFloats x y exponent

end Value

namespace Operator

def applyValues : Operator → Value → Value → Except Fault Value
  | op, .float a, .float b => .ok (.float (op.apply a b))
  | add, v, w => v.plus w
  | subtract, v, w => v.minus w
  | multiply, v, w => v.times w
  | divide, v, w => v.dividedBy w
  | power, v, w => (v.power w).map .float
  | caret, v, w => (v.power w).map .float

@[simp] theorem applyValues_float (op : Operator) (a b : Float) :
    op.applyValues (.float a) (.float b) = .ok (.float (op.apply a b)) := by
  cases op <;> rfl

end Operator

end ParserKit

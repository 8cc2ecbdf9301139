import ParserKit.Parser.Sequence

namespace ParserKit

inductive Mapping
  | identity
  | upper
  | len
  | reverse
  | neg
  | wrap
  | sum
  | depth
  | explode
  | const (value : Value)
  | fail (reason : String)
  | item (k : Int)

namespace Mapping

def exploded : Fault := .aborted "exploded"

def upperChar (c : Char) : Char :=
  if 'a' ≤ c && c ≤ 'z' then Char.ofNat (c.toNat - 32) else c

def upperText : Value → Value
  | .text s => .text (String.ofList (s.toList.map upperChar))
  | v => v

def length : Value → Nat
  | .text s => s.toList.length
  | .list vs => vs.length
  | .tuple vs => vs.length
  | .dict entries => entries.length
  | _ => 0

def reversed : Value → Value
  | .text s => .text (String.ofList s.toList.reverse)
  | .list vs => .list vs.reverse
  | .tuple vs => .tuple vs.reverse
  | v => v

def ints (v : Value) : List Int :=
  (v.items?.getD []).filterMap fun | .int n => some n | _ => none

def total (v : Value) : Int := (ints v).foldl (· + ·) 0

def depthOf (v : Value) : Int :=
  match ints v with
  | [] => 0
  | n :: ns => ns.foldl max n + 1

def apply (f : Mapping) (v : Value) : Except Fault Value :=
  match f with
  | identity => .ok v
  | upper => .ok (upperText v)
  | len => .ok (.int (length v))
  | reverse => .ok (reversed v)
  | neg => .ok v.negated
  | wrap => .ok (.list [v])
  | sum => .ok (.int (total v))
  | depth => .ok (.int (depthOf v))
  | explode => .error exploded
  | const value => .ok value
  | fail reason => .ok (.failure reason)
  | item k => .ok (if k < 0 then .nothing else v.item k.toNat)

end Mapping

inductive CharTest
  | any
  | never
  | explode
  | among (cs : List Char)
  | notAmong (cs : List Char)
  | range (low high : String)

namespace CharTest

def apply (test : CharTest) (c : Char) : Except Fault Bool :=
  match test with
  | any => .ok true
  | never => .ok false
  | explode => .error Mapping.exploded
  | among cs => .ok (cs.contains c)
  | notAmong cs => .ok (!cs.contains c)
  | range low high => .ok (low ≤ String.singleton c && String.singleton c ≤ high)

end CharTest

end ParserKit

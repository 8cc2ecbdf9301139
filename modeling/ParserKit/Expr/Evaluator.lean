import ParserKit.Expr.Transformer
import ParserKit.Value.Arithmetic

namespace ParserKit

namespace Evaluator

def binary : Expr → List Value → Except Fault Value
  | .binary op _ _, [v, w] => op.applyValues v w
  | _, _ => .error .notNumber

def number : Expr → List Value → Except Fault Value
  | .number x, _ => .ok (.float x)
  | _, _ => .error .notNumber

def zero : Expr → List Value → Except Fault Value := fun _ _ => .ok (.float 0)

def methodOf : String → Option (Expr → List Value → Except Fault Value)
  | "number" => some number
  | "binary_operation" => some binary
  | "function_call" => some zero
  | "reference" => some zero
  | _ => none

def basic : Transformer := { Transformer.plain with method := methodOf }

def cell (cells : List (String × Float)) : Expr → List Value → Except Fault Value
  | .reference address, _ =>
    match cells.lookup address with
    | some x => .ok (.float x)
    | none => .error (.missingCell address)
  | _, _ => .error .notNumber

def sumFrom (total : Float) : List Value → Except Fault Value
  | [] => .ok (.float total)
  | .float x :: rest => sumFrom (total + x) rest
  | _ :: _ => .error .notNumber

def sum : Expr → List Value → Except Fault Value
  | .call "SUM" _, args => sumFrom 0 args
  | _, _ => .ok (.float 0)

def withCells (t : Transformer) (cells : List (String × Float)) : Transformer :=
  t.withMethod "reference" (cell cells)

def withSum (t : Transformer) : Transformer := t.withMethod "function_call" sum

end Evaluator

namespace Expr

def evaluate (e : Expr) : Except Fault Value := (Evaluator.basic.transform e).result

end Expr

end ParserKit

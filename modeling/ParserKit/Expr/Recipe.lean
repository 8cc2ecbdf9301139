import ParserKit.Expr.Evaluator
import ParserKit.Value.Display

namespace ParserKit

inductive Action
  | format
  | count
  | node
  | children
  | explode
  | const (value : Value)

namespace Expr

def label : Expr → String
  | number x => displayFloat x
  | binary op _ _ => op.symbol
  | call name _ => name
  | reference address => address
  | custom _ => "?"

end Expr

namespace Action

def textOr (v : Value) : String :=
  match v with
  | .text s => s
  | _ => "?"

def formatted (e : Expr) (children : List Value) : String :=
  match e, children with
  | .binary op _ _, [l, r] => "(" ++ textOr l ++ " " ++ op.symbol ++ " " ++ textOr r ++ ")"
  | .call name _, args => name ++ "(" ++ commaSeparated (args.map textOr) ++ ")"
  | e, _ => e.label

def counted (children : List Value) : Int :=
  children.foldl (fun n v => match v with | .int m => n + m | _ => n) 1

def perform (action : Action) (e : Expr) (children : List Value) : Except Fault Value :=
  match action with
  | .format => .ok (.text (formatted e children))
  | .count => .ok (.int (counted children))
  | .node => .ok (.expr e)
  | .children => .ok (.list children)
  | .explode => .error (.aborted e.label)
  | .const value => .ok value

end Action

structure Recipe where
  base : Transformer
  methods : List (String × Action)
  enter : List String
  cells : Option (List (String × Float))
  sum : Bool

namespace Recipe

def fallbackKey : String := "_default"

def withCells (r : Recipe) (t : Transformer) : Transformer :=
  match r.cells with
  | some cells => Evaluator.withCells t cells
  | none => t

def withSum (r : Recipe) (t : Transformer) : Transformer :=
  if r.sum then Evaluator.withSum t else t

def transformer (r : Recipe) : Transformer :=
  let t := r.withSum (r.withCells r.base)
  { enter := fun kind => if r.enter.contains kind then some fun _ => .ok () else none
    method := fun kind => match r.methods.lookup kind with
      | some action => some action.perform
      | none => t.method kind
    fallback := match r.methods.lookup fallbackKey with
      | some action => action.perform
      | none => t.fallback }

def key? (r : Recipe) (node : Expr) : Option String :=
  if (r.methods.lookup node.kind).isSome then some node.kind
  else if (r.transformer.method node.kind).isNone && (r.methods.lookup fallbackKey).isSome then
    some fallbackKey
  else none

def trace (r : Recipe) (calls : List Call) : List (String × String) :=
  calls.filterMap fun
    | .enter node => some (node.kind ++ "_enter", node.label)
    | .process node _ => (r.key? node).map fun key => (key, node.label)

def run (r : Recipe) (e : Expr) : Journal Value := r.transformer.transform e

end Recipe

end ParserKit

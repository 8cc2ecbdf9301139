import ParserKit.Fault

namespace ParserKit

inductive Operator
  | add | subtract | multiply | divide | power | caret
  deriving DecidableEq, Repr

namespace Operator

def all : List Operator := [add, subtract, multiply, divide, power, caret]

def symbol : Operator → String
  | add => "+"
  | subtract => "-"
  | multiply => "*"
  | divide => "/"
  | power => "**"
  | caret => "^"

def name : Operator → String
  | add => "add"
  | subtract => "subtract"
  | multiply => "multiply"
  | divide => "divide"
  | power => "power"
  | caret => "caret"

def ofSymbol? (text : String) : Option Operator := all.find? (·.symbol == text)

@[simp] theorem ofSymbol?_symbol (op : Operator) : ofSymbol? op.symbol = some op := by
  cases op <;> decide

def apply : Operator → Float → Float → Float
  | add, a, b => a + b
  | subtract, a, b => a - b
  | multiply, a, b => a * b
  | divide, a, b => a / b
  | power, a, b => Float.pow a b
  | caret, a, b => Float.pow a b

end Operator

inductive Expr
  | number (value : Float)
  | binary (op : Operator) (left right : Expr)
  | call (name : String) (args : List Expr)
  | reference (address : String)
  | custom (kind : String)

namespace Expr

def kind : Expr → String
  | number _ => "number"
  | binary .. => "binary_operation"
  | call .. => "function_call"
  | reference _ => "reference"
  | custom kind => kind

def children : Expr → Except Fault (List Expr)
  | number _ => .ok []
  | binary _ left right => .ok [left, right]
  | call _ args => .ok args
  | reference _ => .ok []
  | custom kind => .error (.noChildren kind)

mutual
def equals : Expr → Expr → Bool
  | number x, number y => x == y
  | binary op l r, binary op' l' r' => op == op' && equals l l' && equals r r'
  | call f xs, call g ys => f == g && equalsAll xs ys
  | reference a, reference b => a == b
  | custom k, custom k' => k == k'
  | _, _ => false

def equalsAll : List Expr → List Expr → Bool
  | [], [] => true
  | x :: xs, y :: ys => equals x y && equalsAll xs ys
  | _, _ => false
end

instance : BEq Expr := ⟨equals⟩

end Expr

end ParserKit

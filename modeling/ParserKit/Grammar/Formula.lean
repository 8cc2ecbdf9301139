import ParserKit.Decimal.Nearest
import ParserKit.Parser.Repeat

/-! Formulas: arithmetic as in a spreadsheet, without blanks.  The layers are, the loosest first:
sums, products, powers (which group to the right), operands.  A formula may also be a call of a
function or a reference to a cell. -/

namespace ParserKit

abbrev Links := List (Operator × Expr)

namespace Expr

def foldLeft (a : Expr) (links : Links) : Expr :=
  links.foldl (fun left (op, right) => .binary op left right) a

/-- `a ^ b ^ c` means `a ^ (b ^ c)`: the operators, from the last to the first, are paired with the
operands before them, and the last operand is what they are applied to. -/
def foldRight (a : Expr) (links : Links) : Expr :=
  let operands := a :: links.map Prod.snd
  let lefts := operands.dropLast
  ((links.map Prod.fst).zip lefts).foldr (fun (op, left) right => .binary op left right)
    (operands.getLastD a)

end Expr

namespace Formula

open ParserKit.Parser

def link? : Value → Option (Operator × Expr)
  | .tuple [.operator op, .expr e] => some (op, e)
  | _ => none

def foldChain (fold : Expr → Links → Expr) : Value → Value
  | .tuple [.expr a, .list links] => .expr (fold a (links.filterMap link?))
  | v => v

def operator (ops : List Operator) : Parser :=
  (first (ops.map fun op => (literal op.symbol).map fun _ => .operator op)).named
    (" or ".intercalate (ops.map fun op => Text.quoted op.symbol))

def chain (fold : Expr → Links → Expr) (ops : List Operator) (operand : Parser) : Parser :=
  (pair operand (pair (operator ops) operand).many).map (foldChain fold)

def digits : Parser := digit.many1.concat

def decimalOf (v : Value) : Value :=
  .float (Decimal.ofParts (v.item 0).chars (v.item 2).chars)

def decimal : Parser := (triple digits (char '.') digits).map decimalOf

def negated : Value → Value
  | .float x => .float (-x)
  | v => v

def signedDecimal : Parser :=
  first [((char '-').skipThen decimal).map negated, (char '+').skipThen decimal]

def integerOf (v : Value) : Value :=
  .float (Decimal.signed ((v.item 0).chars == ['-']) (Decimal.ofParts (v.item 1).chars []))

def integer : Parser :=
  (pair (optional (first [char '-', char '+'])) digits).map integerOf

def numberOf : Value → Value
  | .float x => .expr (.number x)
  | v => v

def number : Parser := ((first [decimal, signedDecimal, integer]).map numberOf).named "number"

def nested : Parser := rule .formula "expression"

def operand : Parser := (first [between (char '(') nested (char ')'), number]).named "operand"

def exponentiation : Parser :=
  (chain Expr.foldRight [.power, .caret] operand).named "exponentiation"

def multiplication : Parser :=
  (chain Expr.foldLeft [.multiply, .divide] exponentiation).named "multiplication"

def addition : Parser := (chain Expr.foldLeft [.add, .subtract] multiplication).named "addition"

def expr? : Value → Option Expr
  | .expr e => some e
  | _ => none

def callOf (v : Value) : Value :=
  .expr (.call (v.item 0).plain (((v.item 1).items?.getD []).filterMap expr?))

def functionCall : Parser :=
  ((pair alphanumeric.many1.concat
    (between (char '(') (sepBy (char ',') nested) (char ')'))).map callOf).named "function_call"

def referenceOf (v : Value) : Value :=
  .expr (.reference ((v.item 0).plain ++ (v.item 1).plain))

def reference : Parser :=
  ((pair letter.many1.concat digit.many1.concat).map referenceOf).named "reference"

/-- What starts with neither a digit, a sign nor a bracket falls through to the later
alternatives. -/
def expression : Parser :=
  (first [addition, functionCall, reference, number]).named "expression"

end Formula

end ParserKit

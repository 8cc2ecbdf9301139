import ParserKit.Fault
import ParserKit.Text.Quoted
import ParserKit.Value.Basic

namespace ParserKit

/-- How many digits a whole number may have if it is to be written in decimal. -/
abbrev DigitLimit := Option Nat

namespace DigitLimit

def standard : DigitLimit := some 4300

def allows : DigitLimit → Int → Bool
  | none, _ => true
  | some digits, n => (Nat.toDigits 10 n.natAbs).length ≤ digits

end DigitLimit

def floatLayout : Decimal.Layout := ⟨-4, 16, 2, "nan", "inf"⟩

def displayFloat (x : Float) : String := Decimal.write floatLayout x

def commaSeparated (items : List String) : String := ", ".intercalate items

def displayTuple : List String → String
  | [item] => "(" ++ item ++ ",)"
  | items => "(" ++ commaSeparated items ++ ")"

def Operator.display (op : Operator) : String :=
  "<Operator." ++ op.name ++ ": " ++ Text.quoted op.symbol ++ ">"

namespace Expr

mutual
def display : Expr → String
  | number x => "Number(value=" ++ displayFloat x ++ ")"
  | binary op l r =>
    "BinaryOperation(operator=" ++ op.display ++ ", left=" ++ display l ++ ", right=" ++ display r ++ ")"
  | call name args =>
    "FunctionCall(name=" ++ Text.quoted name ++ ", args=" ++ displayTuple (displayAll args) ++ ")"
  | reference address => "Reference(address=" ++ Text.quoted address ++ ")"
  | custom kind => "Custom(kind=" ++ Text.quoted kind ++ ")"

def displayAll : List Expr → List String
  | [] => []
  | e :: rest => display e :: displayAll rest
end

end Expr

namespace Value

mutual
def spelling : Value → String
  | nothing => "None"
  | bool b => if b then "True" else "False"
  | int n => toString n
  | float x => displayFloat x
  | text s => Text.quoted s
  | list items => "[" ++ commaSeparated (spellings items) ++ "]"
  | tuple items => displayTuple (spellings items)
  | dict entries => "\x7b" ++ commaSeparated (entrySpellings entries) ++ "\x7d"
  | failure reason => "ParseFailure(reason=" ++ Text.quoted reason ++ ")"
  | operator op => op.display
  | expr e => e.display

def spellings : List Value → List String
  | [] => []
  | v :: rest => spelling v :: spellings rest

def entrySpellings : List (String × Value) → List String
  | [] => []
  | (key, v) :: rest => (Text.quoted key ++ ": " ++ spelling v) :: entrySpellings rest
end

mutual
def writable (limit : DigitLimit) : Value → Bool
  | int n => limit.allows n
  | list items => writableAll limit items
  | tuple items => writableAll limit items
  | dict entries => writableEntries limit entries
  | _ => true

def writableAll (limit : DigitLimit) : List Value → Bool
  | [] => true
  | v :: rest => writable limit v && writableAll limit rest

def writableEntries (limit : DigitLimit) : List (String × Value) → Bool
  | [] => true
  | (_, v) :: rest => writable limit v && writableEntries limit rest
end

/-- The written form, as far as the limit allows it. -/
def display (limit : DigitLimit) (v : Value) : Except Fault String :=
  if v.writable limit then .ok v.spelling else .error .notDecimal

def plain : Value → String
  | text s => s
  | operator op => "Operator." ++ op.name
  | v => v.spelling

end Value

end ParserKit

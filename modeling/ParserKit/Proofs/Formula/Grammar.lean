import ParserKit.Decimal.Literal
import ParserKit.Proofs.Language.Basic

namespace ParserKit.Formula

open Text ParserKit.Language

def Digits (w : Input) : Prop := w ≠ [] ∧ ∀ c ∈ w, isAsciiDigit c = true

def Letters (w : Input) : Prop := w ≠ [] ∧ ∀ c ∈ w, isAsciiLetter c = true

def IsName (w : Input) : Prop :=
  ∃ c v, w = c :: v ∧ isAsciiLetter c = true ∧ ∀ d ∈ v, (isAsciiLetter d || isAsciiDigit d) = true

def signs : List Input := [[], ['-'], ['+']]

inductive IsNumeral : Input → Prop
  | whole {sign a} : sign ∈ signs → Digits a → IsNumeral (sign ++ a)
  | decimal {sign a b} : sign ∈ signs → Digits a → Digits b → IsNumeral (sign ++ (a ++ '.' :: b))

/-- A numeral denotes the double which it is read as. -/
def Numeral : Language Float :=
  fun w x => IsNumeral w ∧ Decimal.read? (String.ofList w) = some x

inductive Operand (F : Language Expr) : Language Expr
  | nested {w e} : F w e → Operand F ('(' :: (w ++ [')'])) e
  | number {w x} : Numeral w x → Operand F w (.number x)

/-- Operands joined by operators, which group to the left. -/
inductive LeftChain (ops : List Operator) (O : Language Expr) : Language Expr
  | operand {w e} : O w e → LeftChain ops O w e
  | link {u v op a b} : LeftChain ops O u a → op ∈ ops → O v b →
      LeftChain ops O (u ++ (op.symbol.toList ++ v)) (.binary op a b)

inductive RightChain (ops : List Operator) (O : Language Expr) : Language Expr
  | operand {w e} : O w e → RightChain ops O w e
  | link {u v op a b} : O u a → op ∈ ops → RightChain ops O v b →
      RightChain ops O (u ++ (op.symbol.toList ++ v)) (.binary op a b)

abbrev Power (F : Language Expr) : Language Expr := RightChain [.power, .caret] (Operand F)

abbrev Product (F : Language Expr) : Language Expr := LeftChain [.multiply, .divide] (Power F)

abbrev Sum (F : Language Expr) : Language Expr := LeftChain [.add, .subtract] (Product F)

inductive Arguments (F : Language Expr) : Language (List Expr)
  | none : Arguments F [] []
  | some {w es} : F.Listed ',' w es → Arguments F w es

inductive Call (F : Language Expr) : Language Expr
  | mk {n w es} : IsName n → Arguments F w es →
      Call F (n ++ '(' :: (w ++ [')'])) (.call (String.ofList n) es)

inductive Reference : Language Expr
  | mk {u v} : Letters u → Digits v → Reference (u ++ v) (.reference (String.ofList (u ++ v)))

inductive Derives : Language Expr
  | sum {w e} :
      LeftChain [.add, .subtract]
        (LeftChain [.multiply, .divide] (RightChain [.power, .caret] (Operand Derives))) w e →
      Derives w e
  | call {w e} : Call Derives w e → Derives w e
  | reference {w e} : Reference w e → Derives w e

end ParserKit.Formula

import ParserKit.Parser.Basic

namespace ParserKit

abbrev Rules := Rule → Parser

namespace Parser

def run (rules : Rules) (debug : Bool) : Nat → Parser → Step Value
  | 0, p => p.step ⟨debug, fun _ => Step.raised .tooDeep⟩
  | budget + 1, p => p.step ⟨debug, fun key => run rules debug budget (rules key)⟩

end Parser

inductive Error
  | noMatch (reason : String)
  | fault (fault : Fault)
  deriving DecidableEq, Repr

def Reply.value? {α : Type} : Reply α → Except Error α
  | matched value _ => .ok value
  | failed reason _ => .error (.noMatch reason)
  | raised fault => .error (.fault fault)

end ParserKit

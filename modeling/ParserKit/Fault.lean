/-! Faults: what stops a run for good.  A parser which does not match gives a reason instead, after
which other parsers may be tried; a fault is never caught by a parser. -/

namespace ParserKit

inductive Fault
  | emptyRepeat (name : String)
  | aborted (message : String)
  | notText
  | notNumber
  | notTree
  | countTooLarge
  | numberTooLarge
  | tooLong
  | notDecimal
  | unknownOperator (text : String)
  | noChildren (kind : String)
  | missingCell (address : String)
  | unboundVariable (name : String)
  | unknownRule (name : String)
  | tooDeep
  deriving DecidableEq, Repr

end ParserKit

import ParserKit.Expr.Evaluator
import ParserKit.Grammar.Formula
import ParserKit.Grammar.Json
import ParserKit.Grammar.RunLength

namespace ParserKit

namespace Library

def rules : Rules
  | .formula => Formula.expression
  | .json => Json.value
  | .custom name => .raise (.unknownRule name)

def catalogue : List (String × Parser) := [
  ("letter", .letter), ("digit", .digit), ("alpha", .alphanumeric),
  ("space0", .lineBlanks), ("space1", .lineBlanks1),
  ("multispace0", .blanks), ("multispace1", .blanks1),
  ("nat", .natural), ("int_", .integer), ("end_of_input", .endOfInput),
  ("number", Formula.number), ("operand", Formula.operand),
  ("exponentiation", Formula.exponentiation), ("multiplication", Formula.multiplication),
  ("addition", Formula.addition), ("function_call", Formula.functionCall),
  ("reference", Formula.reference), ("expression", Formula.expression),
  ("json_value", Json.value),
  ("rle_encode", RunLength.encoder), ("rle_decode", RunLength.decoder)]

def find? (name : String) : Option Parser := catalogue.lookup name

end Library

def nesting (s : Input) : Nat := s.countP fun c => c == '(' || c == '[' || c == '\x7b'

namespace Parser

def runLibrary (p : Parser) (debug : Bool) : Step Value := fun s =>
  p.run Library.rules debug (nesting s) s

def parse (p : Parser) (text : String) : Except Error Value :=
  (p.runLibrary false text.toList).reply.value?

end Parser

namespace Json

def decode (text : String) : Except Error Value := document.parse text

end Json

namespace RunLength

def encode (text : String) : Except Error Value := encoder.parse text

def decode (text : String) : Except Error Value := decoder.parse text

end RunLength

namespace Formula

def tree? : Value → Except Error Expr
  | .expr e => .ok e
  | _ => .error (.fault .notTree)

def parse (text : String) : Except Error Expr := (expression.parse text).bind tree?

def evaluate (text : String) : Except Error Value :=
  (parse text).bind fun e => e.evaluate.mapError .fault

end Formula

end ParserKit

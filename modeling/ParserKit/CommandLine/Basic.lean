import ParserKit.CommandLine.Arguments
import ParserKit.Expr.Evaluator
import ParserKit.Grammar.Library

namespace ParserKit.CommandLine

inductive Ending
  | exited (status : Nat) (stdout stderr : String)
  | stopped (stop : Stop)
  | crashed (fault : Fault)

def Command.parser : Command → Parser
  | .ast => Formula.expression
  | .eval => Formula.expression
  | .json => Json.document
  | .rleDecode => RunLength.decoder
  | .rleEncode => RunLength.encoder

def Command.finish : Command → Value → Except Fault Value
  | .eval, .expr e => e.evaluate
  | _, v => .ok v

def Command.function : Command → String → Except Error Value
  | .ast => fun text => (Formula.parse text).map .expr
  | .eval => Formula.evaluate
  | .json => Json.decode
  | .rleDecode => RunLength.decode
  | .rleEncode => RunLength.encode

namespace Source

def input : Source → Input
  | text s => s.toList
  | none => []

def display : Source → Input → String
  | text _ => Event.displayInput
  | none => fun _ => "[]"

end Source

/-- What a program runs under besides its arguments.  Where a record of the log cannot be written,
its handler leaves a notice on the error stream: an account of the error and of the calls which led
to it.  So it is a function of the record's number here. -/
structure Settings where
  limit : DigitLimit
  notice : Nat → String

namespace Settings

def unlimited : Settings := ⟨none, fun _ => ""⟩

def standard : Settings := ⟨.standard, fun _ => "--- Logging error ---\n"⟩

end Settings

def logPrefix : String := "DEBUG:knit.parser:"

def Settings.logFrom (settings : Settings) : Nat → List (Except Fault String) → String
  | _, [] => ""
  | n, .ok line :: records => logPrefix ++ line ++ "\n" ++ settings.logFrom (n + 1) records
  | n, .error _ :: records => settings.notice n ++ settings.logFrom (n + 1) records

def printed (limit : DigitLimit) : Value → Except Fault String
  | .text s => .ok s
  | v => v.display limit

namespace Request

variable (settings : Settings)

def parse (r : Request) : Run Value := r.command.parser.runLibrary r.debug r.source.input

def report (r : Request) (run : Run Value) : String :=
  let log := settings.logFrom 0 (Event.recordsWith settings.limit r.source.display run.events)
  match run.reply with
  | .failed reason _ => log ++ "error: " ++ reason ++ "\n"
  | _ => log

def run (r : Request) : Ending :=
  let run := r.parse
  match run.reply with
  | .matched value _ =>
    match (r.command.finish value).bind (printed settings.limit) with
    | .ok out => .exited 0 (out ++ "\n") (r.report settings run)
    | .error fault => .crashed fault
  | .failed _ _ => .exited 1 "" (r.report settings run)
  | .raised fault => .crashed fault

def stderr (r : Request) : String := r.report settings r.parse

end Request

def runWith (settings : Settings) (args : List String) : Ending :=
  match Request.ofArguments args with
  | .ok request => request.run settings
  | .error stop => .stopped stop

/-- The program where the limit on digits is lifted. -/
def run (args : List String) : Ending := runWith .unlimited args

def stderrWith (settings : Settings) (args : List String) : Except Stop String :=
  (Request.ofArguments args).map (Request.stderr settings)

end ParserKit.CommandLine

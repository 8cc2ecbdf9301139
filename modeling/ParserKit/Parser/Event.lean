import ParserKit.Value.Display

/-! What can be observed of a run besides its answer: the attempts of named parsers, which make up
the debug log, and the life of the scripts, which makes up the trace. -/

namespace ParserKit

abbrev Input := List Char

structure Routine where
  name : String
  traced : Bool
  deriving DecidableEq, Repr

inductive Event
  | tried (name : String) (input : Input)
  | matched (name : String) (value : Value) (rest : Input)
  | failed (name reason : String)
  | entered (routine : Routine)
  | received (routine : Routine) (value : Value)
  | left (routine : Routine)

namespace Event

def displayInput (input : Input) : String := Text.quoted (String.ofList input)

/-- What the debug log records of an event, inputs being shown by a function: a line, or the fault
which keeps a value from being written. -/
def recordWith? (limit : DigitLimit) (display : Input → String) :
    Event → Option (Except Fault String)
  | tried name input => some (.ok ("trying " ++ name ++ " on " ++ display input))
  | matched name value rest => some <| (value.display limit).map fun shown =>
    "matched " ++ name ++ ": " ++ shown ++ ", remaining " ++ display rest
  | failed name reason => some (.ok ("failed " ++ name ++ ": " ++ reason))
  | _ => none

def routine? : Event → Option Routine
  | entered r => some r
  | received r _ => some r
  | left r => some r
  | _ => none

def isTraced (e : Event) : Bool := e.routine?.any Routine.traced

def recordsWith (limit : DigitLimit) (display : Input → String) (events : List Event) :
    List (Except Fault String) :=
  events.filterMap (recordWith? limit display)

def logWithin (limit : DigitLimit) (events : List Event) : List String :=
  (recordsWith limit displayInput events).filterMap Except.toOption

def log (events : List Event) : List String := logWithin none events

def trace (events : List Event) : List Event := events.filter isTraced

end Event

end ParserKit

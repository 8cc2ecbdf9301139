import ParserKit.Text.Digit

namespace ParserKit.CommandLine

inductive Command
  | ast
  | eval
  | json
  | rleDecode
  | rleEncode
  deriving DecidableEq, Repr

namespace Command

def name : Command → String
  | ast => "ast"
  | eval => "eval"
  | json => "json"
  | rleDecode => "rle-decode"
  | rleEncode => "rle-encode"

def ofName? : String → Option Command
  | "ast" => some ast
  | "eval" => some eval
  | "json" => some json
  | "rle-decode" => some rleDecode
  | "rle-encode" => some rleEncode
  | _ => none

@[simp] theorem ofName?_name (c : Command) : ofName? c.name = some c := by cases c <;> rfl

end Command

inductive Word
  | positional (s : String)
  | debug
  | help
  | misused
  | unknown
  | ambiguous
  deriving DecidableEq, Repr

namespace Word

def longOptions : List (List Char × Word) := [("--help".toList, help), ("--debug".toList, debug)]

def isNegativeNumber (cs : List Char) : Bool :=
  match cs with
  | '-' :: cs =>
    let line := if cs.getLast? = some '\n' then cs.dropLast else cs
    let whole := line.takeWhile Text.isDecimalDigit
    match line.dropWhile Text.isDecimalDigit with
    | [] => !whole.isEmpty
    | '.' :: fraction => !fraction.isEmpty && fraction.all Text.isDecimalDigit
    | _ => false
  | _ => false

def ofShort (letters : List Char) : Word :=
  if !letters.isEmpty && letters.all (· == 'h') then help else misused

def ofOther (cs : List Char) : Word :=
  if isNegativeNumber cs || cs.contains ' ' then positional (String.ofList cs) else unknown

def ofLong (cs : List Char) : Word :=
  let name := cs.takeWhile (· != '=')
  match longOptions.filter fun (option, _) => name.isPrefixOf option with
  | [] => ofOther cs
  | [(_, word)] => if name.length = cs.length then word else misused
  | _ => ambiguous

def ofArgument (s : String) : Word :=
  match s.toList with
  | '-' :: '-' :: cs => ofLong ('-' :: '-' :: cs)
  | ['-', 'h'] => help
  | '-' :: 'h' :: '=' :: cs => ofShort cs
  | '-' :: 'h' :: cs => ofShort cs
  | ['-'] => positional s
  | '-' :: cs => ofOther ('-' :: cs)
  | _ => positional s

end Word

def separator : String := "--"

inductive Source
  | text (s : String)
  | none
  deriving DecidableEq, Repr

structure Request where
  command : Command
  source : Source
  debug : Bool
  deriving DecidableEq, Repr

inductive Stop
  | help
  | usage
  deriving DecidableEq, Repr

structure Found where
  command : Option Command
  source : Option Source
  debug : Bool
  extra : Bool
  placed : Bool

namespace Found

def start : Found := ⟨.none, .none, false, false, false⟩

def addPositional (f : Found) (s : String) : Except Stop Found :=
  match f.command, f.source with
  | .none, _ =>
    match Command.ofName? s with
    | some c => .ok { f with command := some c, placed := true }
    | .none => .error .usage
  | some _, .none => .ok { f with source := some (.text s), placed := true }
  | some _, some _ => .ok { f with extra := true, placed := false }

def addWord (f : Found) : Word → Except Stop Found
  | .positional s => f.addPositional s
  | .debug => .ok { f with debug := true, placed := false }
  | .help => .error .help
  | .misused => .error .usage
  | .unknown => .ok { f with extra := true, placed := false }
  | .ambiguous => .error .usage

def addWords (f : Found) : List Word → Except Stop Found
  | [] => .ok f
  | w :: ws => (f.addWord w).bind fun g => addWords g ws

def isTextNext (f : Found) : Bool := f.command.isSome && f.source.isNone

def isFull (f : Found) : Bool := f.command.isSome && f.source.isSome

def addPositionals (f : Found) : List String → Except Stop Found
  | [] => .ok f
  | s :: rest =>
    if f.isTextNext && s == separator then addPositionals { f with source := some .none } rest
    else (f.addPositional s).bind fun g => addPositionals g rest

def addRest (f : Found) (rest : List String) : Except Stop Found :=
  if f.isFull && !f.placed then .error .usage
  else match rest with
    | s :: more =>
      if f.isTextNext && !f.placed then (f.addPositional s).bind (·.addPositionals more)
      else f.addPositionals rest
    | [] => .ok f

def request (f : Found) : Except Stop Request :=
  match f.command, f.source, f.extra with
  | some c, some s, false => .ok ⟨c, s, f.debug⟩
  | _, _, _ => .error .usage

end Found

def Request.ofArguments (args : List String) : Except Stop Request :=
  let words := (args.takeWhile (· != separator)).map Word.ofArgument
  if words.contains .ambiguous then .error .usage
  else
    (Found.start.addWords words).bind fun f =>
      match args.dropWhile (· != separator) with
      | [] => f.request
      | _ :: rest => (f.addRest rest).bind Found.request

end ParserKit.CommandLine

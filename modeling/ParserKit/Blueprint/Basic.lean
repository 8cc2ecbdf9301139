import ParserKit.Blueprint.Mapping
import ParserKit.Grammar.Library

/-! Blueprints: descriptions of parsers as data.  A blueprint is built into a parser with the
values of the variables which it mentions; the later parts of a sequence or a script are built when
they are reached.  Whole numbers in their names may have any number of digits. -/

namespace ParserKit

inductive Argument
  | value (v : Value)
  | bound (name : String) (f : Mapping)

mutual
inductive Blueprint
  | ready (p : Parser)
  | succeed (arg : Argument)
  | fail (arg : Argument)
  | take (arg : Argument)
  | char (arg : Argument)
  | literal (arg : Argument)
  | satisfy (test : CharTest) (name : String)
  | oneOf (p : Blueprint) (ps : List Blueprint)
  | first (ps : List Blueprint)
  | all (ps : List Blueprint)
  | copies (arg : Argument) (p : Blueprint)
  | pair (p q : Blueprint)
  | triple (p q r : Blueprint)
  | quadruple (p q r s : Blueprint)
  | many (p : Blueprint)
  | many1 (p : Blueprint)
  | optional (p : Blueprint)
  | absent (p : Blueprint)
  | orElse (p q : Blueprint)
  | skipThen (p q : Blueprint)
  | thenSkip (p q : Blueprint)
  | between (start p stop : Blueprint)
  | sepBy (separator p : Blueprint)
  | sepBy1 (separator p : Blueprint)
  | concat (p : Blueprint)
  | map (p : Blueprint) (f : Mapping)
  | bind (p : Blueprint) (name : String) (next : Blueprint)
  | named (p : Blueprint) (name : String)
  | rule (key name : String)
  | select (arg : Argument) (cases : List Case) (otherwise : Blueprint)
  | leaf (value : Value) (before : String) (drop : Int) (name : String)
  | script (name : String) (stages : List Stage) (last : Blueprint)

inductive Case
  | mk (value : Value) (p : Blueprint)

inductive Stage
  | bind (name : String) (p : Blueprint)
  | skip (p : Blueprint)
  | times (name : String) (arg : Argument) (p : Blueprint)
  | explode (message : String)
end

abbrev Bindings := List (String × Value)

namespace Argument

def get (env : Bindings) : Argument → Except Fault Value
  | value v => .ok v
  | bound name f =>
    match env.lookup name with
    | some v => f.apply v
    | none => .error (.unboundVariable name)

def getInt (env : Bindings) (arg : Argument) : Except Fault Int :=
  (arg.get env).bind fun v =>
    match v with
    | .int n => .ok n
    | .bool b => .ok (if b then 1 else 0)
    | _ => .error .notNumber

end Argument

namespace Parser

def charOf (v : Value) : Parser :=
  match v with
  | .text s =>
    match s.toList with
    | [c] => char c
    | _ => satisfy (fun _ => false) ("char(" ++ v.spelling ++ ")")
  | v => satisfy (fun _ => false) ("char(" ++ v.spelling ++ ")")

def literalOf (v : Value) : Except Fault Parser :=
  let ofItems (vs : List Value) : Parser :=
    (all (vs.map charOf)).concat.named ("token(" ++ v.spelling ++ ")")
  match v with
  | .text s => .ok (literal s)
  | .list vs => .ok (ofItems vs)
  | .tuple vs => .ok (ofItems vs)
  | .dict entries => .ok (ofItems (entries.map fun (key, _) => .text key))
  | _ => .error .notText

def failOf (v : Value) : Parser := (fail v.plain).named ("failure(" ++ v.spelling ++ ")")

/-- A parser for a number of characters.  A double is only compared with the length of the input: it
can be too much, but it is no number of characters. -/
def takeOf (v : Value) : Parser :=
  let name := "consume(" ++ v.plain ++ ")"
  match v with
  | .int n => takeAs name n
  | .bool b => takeAs name (if b then 1 else 0)
  | .float x => leaf name fun s =>
    if x ≤ Float.ofNat s.length then .error .notNumber else .ok (.failure "not enough input", s)
  | _ => leaf name fun _ => .error .notNumber

end Parser

namespace Blueprint

open ParserKit.Parser

mutual
def build (env : Bindings) : Blueprint → Except Fault Parser
  | .ready p => .ok p
  | .succeed arg => do Parser.success none (← arg.get env)
  | .fail arg => return Parser.failOf (← arg.get env)
  | .take arg => return Parser.takeOf (← arg.get env)
  | .char arg => return Parser.charOf (← arg.get env)
  | .literal arg => do Parser.literalOf (← arg.get env)
  | .satisfy test name => .ok (Parser.satisfyOrFault test.apply name)
  | .oneOf p ps => return Parser.oneOf (← build env p) (← buildAll env ps)
  | .first ps => return Parser.first (← buildAll env ps)
  | .all ps => return Parser.all (← buildAll env ps)
  | .copies arg p => return Parser.all (List.replicate (← arg.getInt env).toNat (← build env p))
  | .pair p q => return Parser.pair (← build env p) (← build env q)
  | .triple p q r => return Parser.triple (← build env p) (← build env q) (← build env r)
  | .quadruple p q r s =>
    return Parser.quadruple (← build env p) (← build env q) (← build env r) (← build env s)
  | .many p => return Parser.many (← build env p)
  | .many1 p => return Parser.many1 (← build env p)
  | .optional p => return Parser.optional (← build env p)
  | .absent p => return Parser.absent (← build env p)
  | .orElse p q => return Parser.orElse (← build env p) (← build env q)
  | .skipThen p q => return Parser.skipThen (← build env p) (← build env q)
  | .thenSkip p q => return Parser.thenSkip (← build env p) (← build env q)
  | .between l p r => return Parser.between (← build env l) (← build env p) (← build env r)
  | .sepBy sep p => return Parser.sepBy (← build env sep) (← build env p)
  | .sepBy1 sep p => return Parser.sepBy1 (← build env sep) (← build env p)
  | .concat p => return Parser.concat (← build env p)
  | .map p f => return Parser.tryMap (← build env p) f.apply
  | .bind p name next =>
    return Parser.bind (← build env p) fun v => .ofExcept (build ((name, v) :: env) next)
  | .named p name => return (← build env p).named name
  | .rule key name => .ok (Parser.rule (.custom key) name)
  | .select arg cases otherwise => do choose env (← arg.get env) cases (build env otherwise)
  | .leaf value before drop name =>
    .ok (Parser.leaf name fun s => .ok (value, before.toList ++ s.drop (cutAt s.length drop)))
  | .script name stages last => .ok (Parser.script ⟨name, true⟩ (scriptOf env stages (fun env => build env last)))

def buildAll (env : Bindings) : List Blueprint → Except Fault (List Parser)
  | [] => .ok []
  | p :: ps => return (← build env p) :: (← buildAll env ps)

def choose (env : Bindings) (v : Value) : List Case → Except Fault Parser → Except Fault Parser
  | [], otherwise => otherwise
  | .mk w p :: cases, otherwise =>
    if w.equals v then build env p else choose env v cases otherwise

def scriptOf (env : Bindings) : List Stage → (Bindings → Except Fault Parser) → Script
  | [], last => .ofExcept (last env)
  | .bind name p :: stages, last =>
    match build env p with
    | .ok p => .await p fun v => scriptOf ((name, v) :: env) stages last
    | .error fault => .raise fault
  | .skip p :: stages, last =>
    match build env p with
    | .ok p => .await p fun _ => scriptOf env stages last
    | .error fault => .raise fault
  | .times name arg p :: stages, last =>
    match arg.getInt env with
    | .ok n =>
      if n ≤ 0 then scriptOf ((name, .list []) :: env) stages last
      else match build env p with
        | .ok p => .times p n.toNat fun vs => scriptOf ((name, .list vs) :: env) stages last
        | .error fault => .raise fault
    | .error fault => .raise fault
  | .explode message :: _, _ => .raise (.aborted message)
end

def rules (blueprints : List (String × Blueprint)) : Rules
  | .custom name =>
    match blueprints.lookup name with
    | some p => .ofExcept (p.build [])
    | none => .raise (.unknownRule name)
  | key => Library.rules key

def depthLimit : Nat := 100000

def run (blueprints : List (String × Blueprint)) (debug : Bool) (p : Parser) : Step Value :=
  p.run (rules blueprints) debug depthLimit

end Blueprint

end ParserKit

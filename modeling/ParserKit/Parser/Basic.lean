import ParserKit.Parser.Step

/-! Parsers as terms.  A parser is a form under a name; forms are built from parsers, and from
functions which choose the parser to go on with.  `Parser.step` gives a parser its meaning. -/

namespace ParserKit

inductive Rule
  | formula
  | json
  | custom (name : String)
  deriving DecidableEq, Repr

mutual
inductive Parser
  | node (name : String) (form : Form)
  | raise (fault : Fault)

inductive Form
  | leaf (f : Input → Except Fault (Value × Input))
  | apply (p : Parser) (f : Value → Except Fault Value)
  | bind (p : Parser) (next : Value → Parser)
  | script (routine : Routine) (body : Script)
  | orElse (p q : Parser)
  | first (ps : List Parser)
  | each (ps : List Parser)
  | many (p : Parser)
  | absent (p : Parser)
  | rule (key : Rule)

/-- A script awaits the values of parsers one by one and ends in a parser, which then runs in its
place. -/
inductive Script
  | done (p : Parser)
  | await (p : Parser) (next : Value → Script)
  | raise (fault : Fault)
end

structure Context where
  debug : Bool
  enter : Rule → Step Value

namespace Parser

def name : Parser → String
  | node name _ => name
  | raise _ => ""

def display (p : Parser) : String := "<Parser " ++ p.name ++ ">"

def named (name : String) : Parser → Parser
  | node _ form => node name form
  | raise fault => raise fault

@[simp] theorem name_node (name : String) (form : Form) : (node name form).name = name := rfl

@[simp] theorem named_node (name name' : String) (form : Form) :
    (node name' form).named name = node name form := rfl

def ofExcept : Except Fault Parser → Parser
  | .ok p => p
  | .error fault => raise fault

end Parser

mutual
def Parser.step (ctx : Context) : Parser → Step Value
  | .node name form => Step.logged ctx.debug name (form.step ctx)
  | .raise fault => Step.raised fault

def Form.step (ctx : Context) : Form → Step Value
  | .leaf f => Step.leaf f
  | .apply p f => (p.step ctx).apply f
  | .bind p next => (p.step ctx).bind fun value => (next value).step ctx
  | .script routine body => fun s => (body.step ctx routine s s).emit [.entered routine]
  | .orElse p q => (p.step ctx).orElse (q.step ctx)
  | .first ps => Step.first (Parser.steps ctx ps)
  | .each ps => (Step.each (Parser.steps ctx ps)).map .list
  | .many p => ((p.step ctx).many p.name).map .list
  | .absent p => (p.step ctx).absent p.name
  | .rule key => ctx.enter key

def Script.step (ctx : Context) (routine : Routine) (start : Input) : Script → Step Value
  | .done p => fun s => (p.step ctx s).emit [.left routine]
  | .await p next =>
    Step.await routine start (p.step ctx) fun value => (next value).step ctx routine start
  | .raise fault => fun _ => ⟨[.left routine], .raised fault⟩

def Parser.steps (ctx : Context) : List Parser → List (Step Value)
  | [] => []
  | p :: ps => p.step ctx :: Parser.steps ctx ps
end

end ParserKit

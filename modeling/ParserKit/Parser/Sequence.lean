import ParserKit.Parser.Leaf

namespace ParserKit

def Parser.names (ps : List Parser) : String := commaSeparated (ps.map Parser.name)

namespace Parser

def tryMap (p : Parser) (f : Value → Except Fault Value) : Parser :=
  node ("map(" ++ p.name ++ ")") (.apply p f)

def map (p : Parser) (f : Value → Value) : Parser := p.tryMap fun v => .ok (f v)

def bind (p : Parser) (next : Value → Parser) : Parser :=
  node ("sequence(" ++ p.name ++ ")") (.bind p next)

def script (routine : Routine) (body : Script) : Parser := node routine.name (.script routine body)

def all (ps : List Parser) : Parser := node ("all_(" ++ names ps ++ ")") (.each ps)

def pair (p q : Parser) : Parser :=
  (p.bind fun a => q.map fun b => .tuple [a, b]).named ("tuple_(" ++ names [p, q] ++ ")")

def triple (p q r : Parser) : Parser :=
  (p.bind fun a => q.bind fun b => r.map fun c => .tuple [a, b, c]).named
    ("tuple3(" ++ names [p, q, r] ++ ")")

def quadruple (p q r s : Parser) : Parser :=
  (p.bind fun a => q.bind fun b => r.bind fun c => s.map fun d => .tuple [a, b, c, d]).named
    ("tuple4(" ++ names [p, q, r, s] ++ ")")

def skipThen (p q : Parser) : Parser := (pair p q).map (·.item 1)

def thenSkip (p q : Parser) : Parser := (pair p q).map (·.item 0)

def between (start p stop : Parser) : Parser := start.skipThen (p.thenSkip stop)

def concat (p : Parser) : Parser := p.tryMap Value.concat

def literal (s : String) : Parser :=
  (all (s.toList.map char)).concat.named ("token(" ++ Text.quoted s ++ ")")

end Parser

namespace Script

def ofExcept : Except Fault Parser → Script
  | .ok p => .done p
  | .error fault => .raise fault

def times (p : Parser) : Nat → (List Value → Script) → Script
  | 0, next => next []
  | n + 1, next => .await p fun v => times p n fun vs => next (v :: vs)

end Script

end ParserKit

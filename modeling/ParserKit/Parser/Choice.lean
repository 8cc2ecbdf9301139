import ParserKit.Parser.Sequence

namespace ParserKit.Parser

def orElse (p q : Parser) : Parser := node (p.name ++ " | " ++ q.name) (.orElse p q)

def oneOf (p : Parser) (ps : List Parser) : Parser := ps.foldl orElse p

def first (ps : List Parser) : Parser := node ("any_(" ++ names ps ++ ")") (.first ps)

def optional (p : Parser) : Parser :=
  (p.orElse (succeed .nothing)).named ("maybe(" ++ p.name ++ ")")

def absent (p : Parser) : Parser := node ("not_(" ++ p.name ++ ")") (.absent p)

end ParserKit.Parser

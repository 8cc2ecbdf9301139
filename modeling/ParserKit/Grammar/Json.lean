import ParserKit.Parser.Repeat

namespace ParserKit.Json

open ParserKit.Parser

def spaced (p : Parser) : Parser := between blanks p blanks

def nested : Parser := rule .json "json_value"

def null : Parser := ((literal "null").map fun _ => .nothing).named "null"

def boolean : Parser :=
  (((literal "true").map fun _ => .bool true).orElse
    ((literal "false").map fun _ => .bool false)).named "bool"

def quote : Parser := char '\x22'

def string : Parser :=
  (between quote (satisfy (· != '\x22') "satisfy").many.concat quote).named "string"

def array : Parser :=
  (between (char '[') ((sepBy (char ',') (spaced nested)).thenSkip blanks) (char ']')).named "array"

def member : Parser := pair ((spaced string).thenSkip (char ':')) (spaced nested)

def entry? : Value → Option (String × Value)
  | .tuple [.text key, value] => some (key, value)
  | _ => none

def toDict : Value → Value
  | .list members => .ofEntries (members.filterMap entry?)
  | v => v

def object : Parser :=
  (between (char '\x7b') (((sepBy (char ',') (spaced member)).thenSkip blanks).map toDict)
    (char '\x7d')).named "object"

def value : Parser :=
  (first [null, boolean, integer, string, array, object]).named "json_value"

def document : Parser := spaced value

end ParserKit.Json

import ParserKit.Parser.Choice
import ParserKit.Text.Blank
import ParserKit.Text.Digit

namespace ParserKit

namespace Parser

def many (p : Parser) : Parser := node ("many0(" ++ p.name ++ ")") (.many p)

def many1 (p : Parser) : Parser :=
  (p.many.bind fun
    | .list [] => (fail "at least one expected").named "fail"
    | values => succeed values).named ("many1(" ++ p.name ++ ")")

def sepBy1 (separator p : Parser) : Parser :=
  (pair p (separator.skipThen p).many).map fun v => .cons (v.item 0) (v.item 1)

def sepBy (separator p : Parser) : Parser :=
  (sepBy1 separator p).orElse ((succeed .nothing).map fun _ => .list [])

def letter : Parser := satisfy Text.isAsciiLetter "letter"

def digit : Parser := satisfy Text.isAsciiDigit "digit"

def alphanumeric : Parser := (first [letter, digit]).named "alpha"

def lineBlank : Parser := satisfy Text.isLineBlank "space"

def lineBlanks : Parser := lineBlank.many.named "space0"

def lineBlanks1 : Parser := lineBlank.many1.named "space1"

def blank : Parser := satisfy Text.isBlank "multispace"

def blanks : Parser := blank.many.named "multispace0"

def blanks1 : Parser := blank.many1.named "multispace1"

def natural : Parser :=
  (digit.many1.map fun v => .int (Text.natOfDigits v.chars)).named "nat"

def integer : Parser :=
  (first [((char '-').skipThen natural).map Value.negated, (char '+').skipThen natural, natural]).named
    "int_"

end Parser

end ParserKit

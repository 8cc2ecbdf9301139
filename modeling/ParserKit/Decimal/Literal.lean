import ParserKit.Decimal.Nearest
import ParserKit.Text.Blank

namespace ParserKit.Decimal

def plainChar (c : Char) : Char :=
  if c.toNat < 128 then c
  else match Text.decimalValue? c with
    | some d => Char.ofNat (48 + d)
    | none => if Text.isBlank c then ' ' else '?'

def isSpace (c : Char) : Bool := c == ' ' || ('\t' ≤ c && c ≤ '\r')

def trim (cs : List Char) : List Char :=
  ((cs.dropWhile isSpace).reverse.dropWhile isSpace).reverse

def dropUnderscores? : List Char → Option (List Char)
  | [] => some []
  | '_' :: _ => none
  | [c] => some [c]
  | c :: '_' :: d :: cs =>
    if Text.isAsciiDigit c && Text.isAsciiDigit d then (c :: ·) <$> dropUnderscores? (d :: cs) else none
  | c :: d :: cs => (c :: ·) <$> dropUnderscores? (d :: cs)

def splitSign : List Char → Bool × List Char
  | '-' :: cs => (true, cs)
  | '+' :: cs => (false, cs)
  | cs => (false, cs)

def readExponent? : List Char → Option Int
  | [] => some 0
  | c :: cs =>
    let (negative, digits) := splitSign cs
    if (c == 'e' || c == 'E') && !digits.isEmpty && digits.all Text.isAsciiDigit then
      let n : Int := Text.natOfDigits digits
      some (if negative then -n else n)
    else none

def readUnsigned? (cs : List Char) : Option Float :=
  let whole := cs.takeWhile Text.isAsciiDigit
  let rest := cs.dropWhile Text.isAsciiDigit
  let (fraction, tail) := match rest with
    | '.' :: cs => (cs.takeWhile Text.isAsciiDigit, cs.dropWhile Text.isAsciiDigit)
    | cs => ([], cs)
  if whole.isEmpty && fraction.isEmpty then none
  else (readExponent? tail).map fun e =>
    scaled (Text.natOfDigits (whole ++ fraction)) (e - fraction.length)

def readMagnitude? (cs : List Char) : Option Float :=
  match String.ofList (cs.map Char.toLower) with
  | "inf" => some infinity
  | "infinity" => some infinity
  | "nan" => some (0.0 / 0.0)
  | _ => readUnsigned? cs

def read? (s : String) : Option Float :=
  (dropUnderscores? (trim (s.toList.map plainChar))).bind fun cs =>
    let (negative, cs) := splitSign cs
    (readMagnitude? cs).map (signed negative)

end ParserKit.Decimal

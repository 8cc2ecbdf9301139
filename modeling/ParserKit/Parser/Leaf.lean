import ParserKit.Parser.Run

namespace ParserKit.Parser

def leaf (name : String) (f : Input → Except Fault (Value × Input)) : Parser := node name (.leaf f)

def succeedAs (name : String) (value : Value) : Parser := leaf name fun s => .ok (value, s)

def succeed (value : Value) : Parser := succeedAs "pure" value

/-- To succeed under a name which shows the value, so that it has to be written. -/
def success (limit : DigitLimit) (value : Value) : Except Fault Parser :=
  (value.display limit).map fun shown => succeedAs ("success(" ++ shown ++ ")") value

def fail (reason : String) : Parser :=
  leaf ("failure(" ++ Text.quoted reason ++ ")") fun s => .ok (.failure reason, s)

def endOfInput : Parser :=
  leaf "end_of_input" fun s =>
    .ok (if s.isEmpty then .nothing else .failure "expected end of input", s)

def satisfyStep (test : Char → Except Fault Bool) : Input → Except Fault (Value × Input)
  | [] => .ok (.failure "doesn't satisfy condition", [])
  | c :: rest => (test c).map fun
    | true => (.text (String.singleton c), rest)
    | false => (.failure "doesn't satisfy condition", c :: rest)

def satisfyOrFault (test : Char → Except Fault Bool) (name : String) : Parser :=
  leaf name (satisfyStep test)

def satisfy (test : Char → Bool) (name : String) : Parser :=
  satisfyOrFault (fun c => .ok (test c)) name

def char (c : Char) : Parser :=
  satisfy (· == c) ("char(" ++ Text.quoted (String.singleton c) ++ ")")

/-- Where an input of the given length is cut: a negative count is counted from the end. -/
def cutAt (length : Nat) (n : Int) : Nat := (if n < 0 then length + n else n).toNat

def takeAs (name : String) (n : Int) : Parser :=
  leaf name fun s =>
    if n ≤ s.length then
      .ok (.text (String.ofList (s.take (cutAt s.length n))), s.drop (cutAt s.length n))
    else .ok (.failure "not enough input", s)

/-- To take characters under a name which shows their number, so that it has to be written. -/
def take (limit : DigitLimit) (n : Int) : Except Fault Parser :=
  ((Value.int n).display limit).map fun shown => takeAs ("consume(" ++ shown ++ ")") n

def rule (key : Rule) (name : String) : Parser := node name (.rule key)

end ParserKit.Parser

import ParserKit.Parser.Repeat

namespace ParserKit.RunLength

open ParserKit.Parser

/-- No text is as long as this, the sixty-third power of two. -/
def countBound : Int := 0x8000000000000000

def countItems : Value → Nat
  | .list items => items.length
  | _ => 0

/-- One character.  No limit bears on this name, nor on that of a text. -/
def single : Parser := takeAs "consume(1)" 1

def produce (s : String) : Parser := succeedAs ("success(" ++ Text.quoted s ++ ")") (.text s)

def encodeRun : Parser :=
  script ⟨"_encode_run", false⟩ <|
    .await single fun c =>
    .await (char (c.chars.headD ' ')).many fun same =>
    .done (produce (toString (countItems same + 1) ++ c.plain))

def repeatText (s : String) (n : Nat) : String := String.join (List.replicate n s)

def decodeRun : Parser :=
  script ⟨"_decode_run", false⟩ <|
    .await natural fun n =>
    .await single fun c =>
    match n with
    | .int n =>
      if countBound ≤ n then .raise .countTooLarge
      else .done (produce (repeatText c.plain n.toNat))
    | _ => .raise .notNumber

def encoder : Parser := encodeRun.many.concat.named "rle_encode"

def decoder : Parser := decodeRun.many.concat.named "rle_decode"

end ParserKit.RunLength

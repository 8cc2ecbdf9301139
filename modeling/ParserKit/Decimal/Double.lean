namespace ParserKit.Decimal

def hiddenUnit : Nat := 0x10000000000000

def signUnit : Nat := 0x8000000000000000

def infinityBits : Nat := 0x7ff0000000000000

structure Binary where
  negative : Bool
  significand : Nat
  exponent : Int

inductive Parts
  | nan
  | infinite (negative : Bool)
  | finite (b : Binary)

def Parts.ofBits (bits : Nat) : Parts :=
  let negative := bits / signUnit % 2 == 1
  let field : Nat := bits / hiddenUnit % 2048
  let low : Nat := bits % hiddenUnit
  if field = 2047 then if low = 0 then .infinite negative else .nan
  else if field = 0 then .finite ⟨negative, low, -1074⟩
  else .finite ⟨negative, low + hiddenUnit, (field : Int) - 1075⟩

end ParserKit.Decimal

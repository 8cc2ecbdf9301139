import ParserKit.Text.Blank
import ParserKit.Text.Digit
import ParserKit.Value.Basic
import ParserKit.Proofs.Language.Basic

/-! The grammar of JSON values.  Blanks may stand around the items of an array and around the keys
and the values of an object, but neither before nor after a value itself. -/

namespace ParserKit.Json

open Text ParserKit.Language

def Blank (w : Input) : Prop := ∀ c ∈ w, isBlank c = true

inductive Integer : Language Int
  | unsigned {w} : run isAsciiDigit w w → Integer w (natOfDigits w)
  | plus {w} : run isAsciiDigit w w → Integer ('+' :: w) (natOfDigits w)
  | minus {w} : run isAsciiDigit w w → Integer ('-' :: w) (-natOfDigits w)

inductive Quoted : Language String
  | mk {w} : '\x22' ∉ w → Quoted ('\x22' :: (w ++ ['\x22'])) (String.ofList w)

inductive Spaced {α : Type} (L : Language α) : Language α
  | mk {u w v a} : Blank u → L w a → Blank v → Spaced L (u ++ (w ++ v)) a

inductive Member (L : Language Value) : Language (String × Value)
  | mk {u v key value} : Spaced Quoted u key → Spaced L v value →
      Member L (u ++ ':' :: v) (key, value)

/-- The entries which the members of an object come to.  The keys are in the order in which they
first came, and each has the value of the last member with that key. -/
structure Entries (members entries : List (String × Value)) : Prop where
  keys : entries.map Prod.fst = (members.map Prod.fst).eraseDups
  values : ∀ entry ∈ entries, ∃ before after,
    members = before ++ entry :: after ∧ entry.1 ∉ after.map Prod.fst

inductive Derives : Language Value
  | null : Derives ['n', 'u', 'l', 'l'] .nothing
  | true : Derives ['t', 'r', 'u', 'e'] (.bool Bool.true)
  | false : Derives ['f', 'a', 'l', 's', 'e'] (.bool Bool.false)
  | integer {w n} : Integer w n → Derives w (.int n)
  | string {w t} : Quoted w t → Derives w (.text t)
  | emptyArray {w} : Blank w → Derives ('[' :: (w ++ [']'])) (.list [])
  | array {w items} : Listed (Spaced Derives) ',' w items →
      Derives ('[' :: (w ++ [']'])) (.list items)
  | emptyObject {w} : Blank w → Derives ('\x7b' :: (w ++ ['\x7d'])) (.dict [])
  | object {w members entries} : Listed (Member Derives) ',' w members → Entries members entries →
      Derives ('\x7b' :: (w ++ ['\x7d'])) (.dict entries)

end ParserKit.Json

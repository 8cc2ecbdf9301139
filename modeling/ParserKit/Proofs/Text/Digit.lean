import Mathlib.Data.List.Induction
import Mathlib.Data.Nat.Digits.Defs
import ParserKit.Text.Digit

namespace ParserKit

open Text

theorem toList_toString (n : Nat) : (toString n).toList = Nat.toDigits 10 n := Nat.toList_repr

theorem isAsciiDigit_of_mem_toString {n : Nat} {c : Char} (h : c ∈ (toString n).toList) :
    isAsciiDigit c = true := by
  rw [toList_toString] at h
  exact Nat.isDigit_of_mem_toDigits (b := 10) (n := n) (by decide) (by decide) h

theorem toString_ne_nil (n : Nat) : (toString n).toList ≠ [] := by
  rw [toList_toString]
  exact Nat.toDigits_ne_nil

theorem natOfDigits_eq (cs : List Char) : natOfDigits cs = Nat.ofDigitChars 10 cs 0 := by
  rw [natOfDigits, Nat.ofDigitChars_eq_foldl]
  congr
  funext n c
  rw [Nat.mul_comm]
  rfl

theorem natOfDigits_toString (n : Nat) : natOfDigits (toString n).toList = n := by
  rw [toList_toString, natOfDigits_eq, Nat.ofDigitChars_ten_toDigits]

namespace Text

def placeValue (ds : List Char) : Nat := Nat.ofDigits 10 (ds.reverse.map digitValue)

theorem natOfDigits_eq_placeValue (ds : List Char) : natOfDigits ds = placeValue ds := by
  induction ds using List.reverseRecOn with
  | nil => rfl
  | append_singleton ds d ih =>
    rw [natOfDigits_append_singleton, ih, placeValue, placeValue, List.reverse_append,
      List.reverse_singleton, List.singleton_append, List.map_cons, Nat.ofDigits_cons]
    omega

end Text

end ParserKit

import Mathlib.Algebra.Group.Nat.Defs
import ParserKit.Value.Display

namespace ParserKit

namespace DigitLimit

theorem allows_some_iff {digits : Nat} (h : 0 < digits) {n : Int} :
    allows (some digits) n = true ↔ n.natAbs < 10 ^ digits := by
  rw [allows, decide_eq_true_iff]
  exact Nat.length_toDigits_le_iff (by decide) h

theorem standard_allows_iff {n : Int} : standard.allows n = true ↔ n.natAbs < 10 ^ 4300 := by
  rw [standard, allows_some_iff (by decide)]

theorem standard_allows_one : standard.allows 1 = true := by decide

end DigitLimit

namespace Value

variable {limit : DigitLimit} {v : Value}

mutual
theorem writable_none : (v : Value) → v.writable none = true
  | .list vs => writableAll_none vs
  | .tuple vs => writableAll_none vs
  | .dict entries => writableEntries_none entries
  | .int _ => rfl
  | .nothing => rfl
  | .bool _ => rfl
  | .float _ => rfl
  | .text _ => rfl
  | .failure _ => rfl
  | .operator _ => rfl
  | .expr _ => rfl

theorem writableAll_none : (vs : List Value) → writableAll none vs = true
  | [] => rfl
  | v :: vs => Bool.and_eq_true_iff.2 ⟨writable_none v, writableAll_none vs⟩

theorem writableEntries_none : (entries : List (String × Value)) →
    writableEntries none entries = true
  | [] => rfl
  | (_, v) :: entries => Bool.and_eq_true_iff.2 ⟨writable_none v, writableEntries_none entries⟩
end

theorem display_of_writable (h : v.writable limit = true) : v.display limit = .ok v.spelling :=
  if_pos h

theorem display_of_not_writable (h : v.writable limit = false) :
    v.display limit = .error .notDecimal :=
  if_neg (Bool.eq_false_iff.1 h)

theorem exists_of_map_display {α : Type} {f : String → α} {a : α}
    (h : (v.display limit).map f = .ok a) : ∃ shown, a = f shown := by
  cases hshown : v.display limit with
  | ok shown =>
    rw [hshown] at h
    exact ⟨shown, (Except.ok.inj h).symm⟩
  | error fault =>
    rw [hshown] at h
    cases h

end Value

end ParserKit

import ParserKit.Proofs.Json.Scalar
import ParserKit.Proofs.Text.Digit

namespace ParserKit

open Text ParserKit.Language

inductive Sign
  | none
  | plus
  | minus

namespace Sign

def spelling : Sign → Input
  | none => []
  | plus => ['+']
  | minus => ['-']

def apply : Sign → Nat → Int
  | none, n => n
  | plus, n => n
  | minus, n => -n

end Sign

namespace Json

theorem integer_iff {w : Input} {n : Int} : Integer w n ↔
    ∃ sign ds, w = Sign.spelling sign ++ ds ∧ ds ≠ [] ∧ (∀ d ∈ ds, isAsciiDigit d = true) ∧
      n = sign.apply (placeValue ds) := by
  constructor
  · rintro (⟨hne, -, hds⟩ | ⟨hne, -, hds⟩ | ⟨hne, -, hds⟩)
    · exact ⟨.none, _, rfl, hne, hds, congrArg Int.ofNat (natOfDigits_eq_placeValue _)⟩
    · exact ⟨.plus, _, rfl, hne, hds, congrArg Int.ofNat (natOfDigits_eq_placeValue _)⟩
    · refine ⟨.minus, _, rfl, hne, hds, ?_⟩
      rw [natOfDigits_eq_placeValue]
      rfl
  · rintro ⟨sign, ds, rfl, hne, hds, rfl⟩
    rw [← natOfDigits_eq_placeValue]
    cases sign with
    | none => exact .unsigned ⟨hne, rfl, hds⟩
    | plus => exact .plus ⟨hne, rfl, hds⟩
    | minus => exact .minus ⟨hne, rfl, hds⟩

theorem integer_toString (n : Int) : Integer (toString n).toList n := by
  have hrun (m : Nat) : run isAsciiDigit (toString m).toList (toString m).toList :=
    ⟨toString_ne_nil m, rfl, fun _ => isAsciiDigit_of_mem_toString⟩
  cases n with
  | ofNat m =>
    have h := Integer.unsigned (hrun m)
    rwa [natOfDigits_toString] at h
  | negSucc m =>
    have hspelling : toString (Int.negSucc m) = "-" ++ toString (m + 1) := rfl
    rw [hspelling, String.toList_append]
    have h := Integer.minus (hrun (m + 1))
    rwa [natOfDigits_toString] at h

end Json

namespace Parser

variable (ctx : Context) {s rest : Input} {v : Value}

theorem answer_integer_iff : integer.answer ctx s = .matched v rest ↔
    ∃ w n, s = w ++ rest ∧ Json.Integer w n ∧ v = .int n ∧ ¬ Starts isAsciiDigit rest :=
  (Json.reads_integer ctx s).matched_iff_not_starts fun _ _ _ h hc => h.append_digit hc

theorem answer_integer_append {w : Input} {n : Int} (hw : Json.Integer w n) (rest : Input)
    (hrest : ¬ Starts isAsciiDigit rest) :
    integer.answer ctx (w ++ rest) = .matched (.int n) rest :=
  (answer_integer_iff ctx).2 ⟨w, n, rfl, hw, rfl, hrest⟩

theorem integer_append_inj {w w' s t : Input} {n m : Int} (hw : Json.Integer w n)
    (hw' : Json.Integer w' m) (hs : ¬ Starts isAsciiDigit s) (ht : ¬ Starts isAsciiDigit t)
    (h : w ++ s = w' ++ t) : n = m ∧ s = t := by
  let ctx : Context := ⟨false, fun _ => Step.raised .tooDeep⟩
  have hread := answer_integer_append ctx hw s hs
  have hread' := answer_integer_append ctx hw' t ht
  rw [h] at hread
  exact (Reply.matched.inj (hread.symm.trans hread')).imp_left Value.int.inj

theorem answer_integer_failed (h : ¬ ∃ v rest, integer.answer ctx s = .matched v rest) :
    integer.answer ctx s = .failed "no match" s :=
  (Json.reads_integer ctx s).no_match fun v rest heq => h ⟨v, rest, heq⟩

theorem answer_natural_iff : natural.answer ctx s = .matched v rest ↔
    ∃ ds, s = ds ++ rest ∧ ds ≠ [] ∧ (∀ d ∈ ds, isAsciiDigit d = true) ∧
      ¬ Starts isAsciiDigit rest ∧ v = .int (placeValue ds) := by
  rw [(reads_natural ctx s).matched_iff_not_starts fun _ _ _ ⟨hne, hw, hds⟩ hc =>
    ⟨_, run_append ⟨hne, rfl, fun d hd => hds d (hw ▸ hd)⟩ hc⟩]
  constructor
  · rintro ⟨ds, _, hs, ⟨hne, rfl, hds⟩, rfl, hrest⟩
    exact ⟨_, hs, hne, hds, hrest, by rw [natOfDigits_eq_placeValue]⟩
  · rintro ⟨ds, hs, hne, hds, hrest, rfl⟩
    exact ⟨ds, ds, hs, ⟨hne, rfl, hds⟩, by rw [natOfDigits_eq_placeValue], hrest⟩

/-- Signed and unsigned integers of any size are read as the numbers for which they stand, up to
where the digits end. -/
theorem integers_read :
    (∀ s v rest, integer.answer ctx s = .matched v rest ↔
      ∃ sign ds, s = Sign.spelling sign ++ (ds ++ rest) ∧ ds ≠ [] ∧
        (∀ d ∈ ds, isAsciiDigit d = true) ∧ ¬ Starts isAsciiDigit rest ∧
        v = .int (sign.apply (placeValue ds))) ∧
    (∀ s, (¬ ∃ v rest, integer.answer ctx s = .matched v rest) →
      integer.answer ctx s = .failed "no match" s) ∧
    (∀ (n : Int) rest, ¬ Starts isAsciiDigit rest →
      integer.answer ctx ((toString n).toList ++ rest) = .matched (.int n) rest) ∧
    (∀ s v rest, natural.answer ctx s = .matched v rest ↔
      ∃ ds, s = ds ++ rest ∧ ds ≠ [] ∧ (∀ d ∈ ds, isAsciiDigit d = true) ∧
        ¬ Starts isAsciiDigit rest ∧ v = .int (placeValue ds)) ∧
    (∀ s, (∃ v rest, natural.answer ctx s = .matched v rest) ↔ Starts isAsciiDigit s) ∧
    (∀ s, ¬ Starts isAsciiDigit s →
      natural.answer ctx s = .failed "at least one expected" s) ∧
    (∀ (n : Nat) rest, ¬ Starts isAsciiDigit rest →
      natural.answer ctx ((toString n).toList ++ rest) = .matched (.int n) rest) := by
  refine ⟨fun s v rest => ?_, fun s => answer_integer_failed ctx, fun n rest hrest => ?_,
    fun s v rest => answer_natural_iff ctx, fun s => ⟨?_, fun hs => ?_⟩,
    fun s => answer_natural_of_not_starts ctx, fun n rest hrest => ?_⟩
  · rw [answer_integer_iff]
    constructor
    · rintro ⟨w, n, rfl, hw, rfl, hrest⟩
      obtain ⟨sign, ds, rfl, hne, hds, rfl⟩ := Json.integer_iff.1 hw
      exact ⟨sign, ds, List.append_assoc .., hne, hds, hrest, rfl⟩
    · rintro ⟨sign, ds, rfl, hne, hds, hrest, rfl⟩
      exact ⟨_, _, (List.append_assoc ..).symm, Json.integer_iff.2 ⟨sign, ds, rfl, hne, hds, rfl⟩,
        rfl, hrest⟩
  · exact answer_integer_append ctx (Json.integer_toString n) rest hrest
  · rintro ⟨v, rest, h⟩
    obtain ⟨ds, rfl, hne, hds, _⟩ := (answer_natural_iff ctx).1 h
    exact starts_of_cons hne hds
  · exact ⟨_, _, answer_natural_of_starts ctx hs⟩
  · refine (answer_natural_iff ctx).2 ⟨_, rfl, toString_ne_nil n,
      fun _ => isAsciiDigit_of_mem_toString, hrest, ?_⟩
    rw [← natOfDigits_eq_placeValue, natOfDigits_toString]

end Parser

end ParserKit

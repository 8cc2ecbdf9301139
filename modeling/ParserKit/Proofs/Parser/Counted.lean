import ParserKit.Grammar.Library
import ParserKit.Proofs.Parser.Integer
import ParserKit.Proofs.Parser.Nesting

namespace ParserKit

namespace Script

variable (ctx : Context) (routine : Routine) (start : Input)

theorem answer_ofExcept_ok (p : Parser) (s : Input) :
    (ofExcept (.ok p)).answer ctx routine start s = p.answer ctx s := answer_done ..

theorem answer_ofExcept_error (fault : Fault) (s : Input) :
    (ofExcept (.error fault)).answer ctx routine start s = .raised fault := rfl

end Script

namespace Parser

open Text

variable (ctx : Context) {limit : DigitLimit} {n : Int} {s : Input}

def counted (limit : DigitLimit) : Parser :=
  script ⟨"counted", true⟩ <|
    .await integer fun n =>
    .await (char ':') fun _ =>
    match n with
    | .int n => .ofExcept (take limit n)
    | _ => .raise .notNumber

theorem answer_counted (limit : DigitLimit) (w body : Input) (h : Json.Integer w n) :
    (counted limit).answer ctx (w ++ ':' :: body) =
      if limit.allows n then (takeAs ("consume(" ++ toString n ++ ")") n).answer ctx body
      else .raised .notDecimal := by
  have hinteger : integer.answer ctx (w ++ ':' :: body) = .matched (.int n) (':' :: body) :=
    answer_integer_append ctx h (':' :: body) Bool.false_ne_true
  rw [counted, answer_script, Script.answer_await, hinteger, Reply.andThen_matched,
    Script.answer_await, answer_char_of_eq, Reply.andThen_matched]
  dsimp only
  cases hn : limit.allows n with
  | true => rw [take_of_allows hn, Script.answer_ofExcept_ok, if_pos rfl]
  | false => rw [take_of_not_allows hn, Script.answer_ofExcept_error, if_neg Bool.false_ne_true]

theorem exists_of_answer_counted {v : Value} {rest : Input}
    (h : (counted limit).answer ctx s = .matched v rest) :
    ∃ w n body, Json.Integer w n ∧ s = w ++ ':' :: body := by
  rw [counted, answer_script, Script.answer_await] at h
  cases hinteger : integer.answer ctx s with
  | failed _ _ => rw [hinteger] at h; cases h
  | raised _ => rw [hinteger] at h; cases h
  | matched v t =>
    obtain ⟨w, n, rfl, hw, rfl, -⟩ := (answer_integer_iff ctx).1 hinteger
    rw [hinteger, Reply.andThen_matched, Script.answer_await] at h
    by_cases hcolon : t.head? = some ':'
    · obtain ⟨body, rfl⟩ := List.head?_eq_some_iff.1 hcolon
      exact ⟨w, n, body, hw, rfl⟩
    · rw [answer_char_of_ne ctx hcolon] at h
      cases h

theorem answer_counted_iff {w body rest : Input} (hw : Json.Integer w n) {v : Value} :
    (counted limit).answer ctx (w ++ ':' :: body) = .matched v rest ↔
      limit.allows n = true ∧ ∃ u, body = u ++ rest ∧ v = .text (String.ofList u) ∧ Cut n u rest := by
  rw [answer_counted ctx limit w body hw]
  cases limit.allows n with
  | true => rw [if_pos rfl, answer_takeAs_iff, eq_self, true_and]
  | false =>
    rw [if_neg Bool.false_ne_true]
    exact ⟨nofun, fun h => absurd h.1 Bool.false_ne_true⟩

/-- Counted text is taken up to where the count cuts the input.  So it has the announced length
just where that is not negative.  A count beyond the limit on digits ends the run. -/
theorem counted_takes (limit : DigitLimit) :
    (∀ s v rest, (counted limit).answer ctx s = .matched v rest ↔
      ∃ w n u, Json.Integer w n ∧ s = w ++ ':' :: (u ++ rest) ∧ v = .text (String.ofList u) ∧
        Cut n u rest ∧ limit.allows n = true) ∧
    (∀ w n u rest, Json.Integer w n →
      (counted limit).answer ctx (w ++ ':' :: (u ++ rest)) =
        .matched (.text (String.ofList u)) rest →
      ((u.length : Int) = n ↔ 0 ≤ n)) ∧
    (∀ w n body, Json.Integer w n → limit.allows n = true → (body.length : Int) < n →
      (counted limit).answer ctx (w ++ ':' :: body) = .failed "not enough input" body) ∧
    ∀ w n body, Json.Integer w n → limit.allows n = false →
      (counted limit).answer ctx (w ++ ':' :: body) = .raised .notDecimal := by
  refine ⟨fun s v rest => ⟨fun h => ?_, ?_⟩, fun w n u rest hw h => ?_,
    fun w n body hw hn hlt => ?_, fun w n body hw hn => ?_⟩
  · obtain ⟨w, n, body, hw, rfl⟩ := exists_of_answer_counted ctx h
    obtain ⟨hn, u, rfl, rfl, hcut⟩ := (answer_counted_iff ctx hw).1 h
    exact ⟨w, n, u, hw, rfl, rfl, hcut, hn⟩
  · rintro ⟨w, n, u, hw, rfl, rfl, hcut, hn⟩
    exact (answer_counted_iff ctx hw).2 ⟨hn, u, rfl, rfl, hcut⟩
  · obtain ⟨-, u', hu, -, hcut⟩ := (answer_counted_iff ctx hw).1 h
    rw [List.append_cancel_right hu]
    exact hcut.length_eq_iff
  · rw [answer_counted ctx limit w body hw, if_pos hn, answer_takeAs_of_lt ctx hlt]
  · rw [answer_counted ctx limit w body hw, if_neg (Bool.eq_false_iff.1 hn)]

theorem counted_negative :
    ((counted .standard).runLibrary false "-1:abc".toList).reply = .matched (.text "ab") ['c'] ∧
    ¬ ∃ w n u, Json.Integer w n ∧ "-1:abc".toList = w ++ ':' :: (u ++ ['c']) ∧
      Value.text "ab" = .text (String.ofList u) ∧ (u.length : Int) = n := by
  have hone : Json.Integer ['-', '1'] (-1) :=
    .minus ⟨List.cons_ne_nil _ _, rfl, List.forall_mem_singleton.2 rfl⟩
  constructor
  · have hs : "-1:abc".toList = ['-', '1'] ++ ':' :: ['a', 'b', 'c'] := rfl
    rw [runLibrary, reply_run, hs]
    refine (answer_counted_iff _ hone).2 ⟨by decide, ?_⟩
    exact ⟨['a', 'b'], rfl, rfl, .inr ⟨by decide, .inl rfl⟩⟩
  · rintro ⟨w, n, u, hw, hs, -, hlen⟩
    have hcolon (body : Input) : ¬ Starts isAsciiDigit (':' :: body) := Bool.false_ne_true
    have hn := (integer_append_inj hone hw (hcolon ['a', 'b', 'c']) (hcolon _) hs).1
    omega

end Parser

end ParserKit

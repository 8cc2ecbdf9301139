import Mathlib.Data.List.Basic
import ParserKit.Proofs.Parser.Suffix

namespace ParserKit

open ParserKit.Parser

theorem built_first {ps : List Parser} (h : List.Forall Built ps) : Built (first ps) :=
  .first (List.forall_iff_forall_mem.1 h)

theorem built_digit : Built digit := .satisfy _ _

theorem built_letter : Built letter := .satisfy _ _

theorem built_alphanumeric : Built alphanumeric :=
  .named _ (built_first ⟨built_letter, built_digit⟩)

theorem built_lineBlanks : Built lineBlanks := .named _ (.many (.satisfy _ _))

theorem built_lineBlanks1 : Built lineBlanks1 := .named _ (.many1 (.satisfy _ _))

theorem built_blanks : Built blanks := .named _ (.many (.satisfy _ _))

theorem built_blanks1 : Built blanks1 := .named _ (.many1 (.satisfy _ _))

theorem built_natural : Built natural := .named _ (.map _ (.many1 built_digit))

theorem built_integer : Built integer :=
  .named _ (built_first ⟨.map _ (.skipThen (.char '-') built_natural),
    .skipThen (.char '+') built_natural, built_natural⟩)

namespace Formula

theorem built_nested : Built nested := .rule _ _

theorem built_chain {p : Parser} (hp : Built p) (fold : Expr → Links → Expr) (ops : List Operator) :
    Built (chain fold ops p) := by
  have hop : Built (operator ops) := by
    refine .named _ (.first fun q hq => ?_)
    obtain ⟨op, _, rfl⟩ := List.mem_map.1 hq
    exact .map _ (.literal _)
  exact .map _ (.pair hp (.many (.pair hop hp)))

theorem built_number : Built number := by
  have hdigits : Built digits := .concat (.many1 built_digit)
  have hdecimal : Built decimal := .map _ (.triple hdigits (.char '.') hdigits)
  have hsigned : Built signedDecimal :=
    built_first ⟨.map _ (.skipThen (.char '-') hdecimal), .skipThen (.char '+') hdecimal⟩
  have hinteger : Built integer :=
    .map _ (.pair (.optional (built_first ⟨.char '-', .char '+'⟩)) hdigits)
  exact .named _ (.map _ (built_first ⟨hdecimal, hsigned, hinteger⟩))

theorem built_operand : Built operand :=
  .named _ (built_first ⟨.between (.char '(') built_nested (.char ')'), built_number⟩)

theorem built_exponentiation : Built exponentiation := .named _ (built_chain built_operand _ _)

theorem built_multiplication : Built multiplication :=
  .named _ (built_chain built_exponentiation _ _)

theorem built_addition : Built addition := .named _ (built_chain built_multiplication _ _)

theorem built_functionCall : Built functionCall :=
  .named _ (.map _ (.pair (.concat (.many1 built_alphanumeric))
    (.between (.char '(') (.sepBy (.char ',') built_nested) (.char ')'))))

theorem built_reference : Built reference :=
  .named _ (.map _ (.pair (.concat (.many1 built_letter)) (.concat (.many1 built_digit))))

theorem built_expression : Built expression :=
  .named _ (built_first ⟨built_addition, built_functionCall, built_reference, built_number⟩)

end Formula

namespace Json

theorem built_spaced {p : Parser} (hp : Built p) : Built (spaced p) :=
  .between built_blanks hp built_blanks

theorem built_string : Built string :=
  .named _ (.between (.char _) (.concat (.many (.satisfy _ _))) (.char _))

theorem built_value : Built value := by
  have hnested : Built nested := .rule _ _
  have hnull : Built null := .named _ (.map _ (.literal _))
  have hboolean : Built boolean := .named _ (.orElse (.map _ (.literal _)) (.map _ (.literal _)))
  have hitems : ∀ {p}, Built p → Built ((sepBy (.char ',') (spaced p)).thenSkip blanks) :=
    fun hp => .thenSkip (.sepBy (.char ',') (built_spaced hp)) built_blanks
  have harray : Built array := .named _ (.between (.char _) (hitems hnested) (.char _))
  have hmember : Built member :=
    .pair (.thenSkip (built_spaced built_string) (.char ':')) (built_spaced hnested)
  have hobject : Built object := .named _ (.between (.char _) (.map _ (hitems hmember)) (.char _))
  exact .named _ (built_first ⟨hnull, hboolean, built_integer, built_string, harray, hobject⟩)

end Json

namespace RunLength

theorem take_one {limit : DigitLimit} (h : limit.allows 1 = true) : take limit 1 = .ok single :=
  take_of_allows h

theorem success_text (limit : DigitLimit) (s : String) :
    success limit (.text s) = .ok (produce s) := rfl

theorem built_single : Built single := .take (take_one DigitLimit.standard_allows_one)

theorem built_produce (s : String) : Built (produce s) := .success (success_text .standard s)

theorem built_encoder : Built encoder := by
  refine .named _ (.concat (.many (.script _ fun p hp => ?_)))
  cases hp with
  | here => exact built_single
  | later hp =>
    cases hp with
    | here => exact .many (.char _)
    | later hp =>
      cases hp
      exact built_produce _

theorem built_decoder : Built decoder := by
  refine .named _ (.concat (.many (.script _ fun p hp => ?_)))
  cases hp with
  | here => exact built_natural
  | later hp =>
    cases hp with
    | here => exact built_single
    | later hp =>
      split at hp
      · split at hp
        · cases hp
        · cases hp
          exact built_produce _
      · cases hp

end RunLength

namespace Library

theorem built_rules (key : Rule) : Built (rules key) := by
  cases key with
  | formula => exact Formula.built_expression
  | json => exact Json.built_value
  | custom name => exact .raise _

theorem built_catalogue : ∀ entry ∈ catalogue, Built entry.2 := by
  refine List.forall_iff_forall_mem.1 ?_
  exact ⟨built_letter, built_digit, built_alphanumeric, built_lineBlanks, built_lineBlanks1,
    built_blanks, built_blanks1, built_natural, built_integer, .endOfInput, Formula.built_number,
    Formula.built_operand, Formula.built_exponentiation, Formula.built_multiplication,
    Formula.built_addition, Formula.built_functionCall, Formula.built_reference,
    Formula.built_expression, Json.built_value, RunLength.built_encoder, RunLength.built_decoder⟩

theorem leaves_runLibrary {name : String} {p : Parser} (h : (name, p) ∈ catalogue) (debug : Bool)
    (s : Input) : (p.runLibrary debug s).reply.Leaves s := by
  rw [runLibrary, reply_run]
  exact (built_catalogue _ h).trims (leaves_enter built_rules debug _) s

end Library

end ParserKit

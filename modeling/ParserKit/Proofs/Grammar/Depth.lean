import ParserKit.Proofs.Formula.Reading
import ParserKit.Proofs.Json.Reading
import ParserKit.Proofs.Parser.Descent

namespace ParserKit

namespace Parser

structure NestsAtMost (p : Parser) (bound : Nat) (s : Input) : Prop where
  recorded : ∀ debug n, (p.recorded Library.rules n s).SameUpTo Eq (fun e => e.routine?.isSome)
    (p.run Library.rules debug n s)
  nested : ∀ n, bound ≤ n → ∀ es, es <+: (p.recorded Library.rules n s).events →
    (Event.pending [] es).length ≤ bound ∧
      (Event.pending [] es ++ [s]).IsChain fun rest s => rest <:+ s ∧ rest.length < s.length
  within_budget : ∀ debug n, bound ≤ n → (p.run Library.rules debug n s).reply ≠ .raised .tooDeep

theorem nestsAtMost {α : Type} {L : Language α} {code : α → Value} {More : Input → Prop} (key : Rule)
    (h : ∀ ctx s, Within (Reads L code More) key ctx s →
      Reads L code More s ((Library.rules key).answer ctx s)) (s : Input) :
    (Library.rules key).NestsAtMost (key.depth s) s where
  recorded debug n := recorded_same Library.rules debug n (Library.rules key) s
  nested n hn es hes := by
    obtain ⟨inner, hinner, hchain⟩ := (recorded_descends h hn).1.chained [] es hes
    rw [List.append_nil] at hinner
    rw [hinner]
    exact ⟨Rule.length_le_depth hchain, hchain.imp fun _ _ hb => hb.suffix⟩
  within_budget debug n hn hr := by
    have hreads := h _ s (within_context h debug hn)
    rw [← reply_run, hr] at hreads
    cases hreads

/-- Formulas are nested no deeper than there are round brackets, and values no deeper than there are
square and curly ones. -/
theorem nesting_bounded (s : Input) :
    Formula.expression.NestsAtMost (s.count '(') s ∧
      Json.value.NestsAtMost (s.countP fun c => c == '[' || c == '\x7b') s :=
  ⟨nestsAtMost .formula (fun _ _ => Formula.reads_expression) s,
    nestsAtMost .json (fun _ _ => Json.reads_contents) s⟩

example : (Event.pending []
    ((Json.value.recorded Library.rules 2 ['[', '[']).events.take 2)).length = 2 := by rfl

end Parser

end ParserKit

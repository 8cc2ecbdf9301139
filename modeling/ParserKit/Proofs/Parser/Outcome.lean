import ParserKit.Proofs.Parser.Nesting

namespace ParserKit

def Reply.Proper : Reply Value → Prop
  | matched value _ => value.isFailure = false
  | failed _ _ => True
  | raised _ => True

namespace Reply.Proper

theorem ofOutcome (outcome : Except Fault Value) (rest : Input) :
    (Reply.ofOutcome outcome rest).Proper := by
  cases outcome with
  | error fault => trivial
  | ok value => cases value <;> trivial

theorem andThen {α : Type} (r : Reply α) (start : Input) {next : α → Input → Reply Value}
    (h : ∀ a rest, (next a rest).Proper) : (r.andThen start next).Proper := by
  cases r with
  | matched a rest => exact h a rest
  | failed reason rest => trivial
  | raised fault => trivial

theorem orElse {r r' : Reply Value} (h : r.Proper) (h' : r'.Proper) : (r.orElse r').Proper := by
  cases r with
  | matched value rest => exact h
  | failed reason rest => exact h'
  | raised fault => trivial

theorem andThen_ofOutcome {r : Reply Value} (h : r.Proper) (start : Input) :
    (r.andThen start fun value rest => .ofOutcome (.ok value) rest) = r.andThen start .matched := by
  cases r with
  | matched value rest => exact ofOutcome_ok h rest
  | failed reason rest => rfl
  | raised fault => rfl

theorem map_list (r : Reply (List Value)) : (r.map .list).Proper := by
  cases r <;> trivial

end Reply.Proper

theorem Step.proper_leaf (f : Input → Except Fault (Value × Input)) (s : Input) :
    (Step.leaf f s).reply.Proper := by
  rw [Step.leaf]
  split
  · exact .ofOutcome _ _
  · trivial

theorem Step.proper_absent (name : String) (p : Step Value) (s : Input) :
    (Step.absent name p s).reply.Proper := by
  rw [Step.absent]
  split <;> trivial

def Context.Proper (ctx : Context) : Prop := ∀ key s, (ctx.enter key s).reply.Proper

mutual
theorem Parser.proper {ctx : Context} (hctx : ctx.Proper) :
    (p : Parser) → ∀ s, (p.answer ctx s).Proper
  | .node name form, s => by
    rw [Parser.answer_node]
    exact Form.proper hctx form s
  | .raise _, _ => trivial

theorem Form.proper {ctx : Context} (hctx : ctx.Proper) :
    (form : Form) → ∀ s, (form.step ctx s).reply.Proper
  | .leaf f, s => Step.proper_leaf f s
  | .apply p f, s => by
    rw [Form.step, Step.reply_apply]
    exact .andThen _ s fun v rest => .ofOutcome (f v) rest
  | .bind p next, s => by
    rw [Form.step, Step.reply_bind]
    exact .andThen _ s fun v rest => Parser.proper hctx (next v) rest
  | .script routine body, s => Script.proper hctx body routine s s
  | .orElse p q, s => by
    rw [Form.step, Step.reply_orElse]
    exact (Parser.proper hctx p s).orElse (Parser.proper hctx q s)
  | .first ps, s => Parser.proper_first hctx ps s
  | .each _, _ => .map_list _
  | .many _, _ => .map_list _
  | .absent p, s => Step.proper_absent p.name (p.step ctx) s
  | .rule key, s => hctx key s

theorem Script.proper {ctx : Context} (hctx : ctx.Proper) :
    (body : Script) → (routine : Routine) → ∀ start s, (body.answer ctx routine start s).Proper
  | .done p, _, _, s => by
    rw [Script.answer_done]
    exact Parser.proper hctx p s
  | .await p next, routine, start, s => by
    rw [Script.answer_await]
    exact .andThen _ start fun v rest => Script.proper hctx (next v) routine start rest
  | .raise _, _, _, _ => trivial

theorem Parser.proper_first {ctx : Context} (hctx : ctx.Proper) :
    (ps : List Parser) → ∀ s, (Step.first (Parser.steps ctx ps) s).reply.Proper
  | [], _ => trivial
  | p :: ps, s => by
    rw [Parser.steps, Step.reply_first_cons]
    exact (Parser.proper hctx p s).orElse (Parser.proper_first hctx ps s)
end

namespace Parser

theorem proper_context (rules : Rules) (debug : Bool) (budget : Nat) :
    (context rules debug budget).Proper := by
  induction budget with
  | zero => exact fun _ _ => trivial
  | succ budget ih =>
    intro key s
    rw [enter_context_succ]
    exact Parser.proper ih (rules key) s

theorem answer_skipThen_eq {ctx : Context} (hctx : ctx.Proper) (p q : Parser) (s : Input) :
    (p.skipThen q).answer ctx s =
      (p.answer ctx s).andThen s fun _ t => (q.answer ctx t).andThen s .matched := by
  rw [answer_skipThen]
  simp only [(Parser.proper hctx q _).andThen_ofOutcome]

end Parser

end ParserKit

import ParserKit.Proofs.Event.Bracket
import ParserKit.Proofs.Parser.Alike
import ParserKit.Proofs.Parser.Nesting

namespace ParserKit

universe u v

variable {α : Type u} {β : Type v}

def Run.Closes (brackets : List Bracket) (r : Run α) : Prop :=
  ∀ stack, ∃ opened, Event.openAfter? (brackets ++ stack) r.events = some (opened ++ stack) ∧
    (opened = [] ∨ ∃ fault, r.reply = .raised fault)

namespace Run.Closes

variable {b : Bracket} {brackets brackets' : List Bracket} {r : Run α}

theorem silent (r : Reply α) : (Run.silent r).Closes [] :=
  fun _ => ⟨[], rfl, .inl rfl⟩

theorem emit (h : r.Closes brackets) {es : List Event}
    (hes : ∀ stack, Event.openAfter? (brackets' ++ stack) es = some (brackets ++ stack)) :
    (r.emit es).Closes brackets' := by
  intro stack
  rw [events_emit, Event.openAfter?_append_of_eq (hes stack)]
  exact h stack

theorem opening {e : Event} (h : r.Closes [e.bracket]) (he : e.role = .opens) :
    (r.emit [e]).Closes [] :=
  h.emit fun stack => by rw [Event.openAfter?_singleton]; exact Event.advance?_opens he stack

theorem within {e : Event} (h : r.Closes [e.bracket]) (he : e.role = .within) :
    (r.emit [e]).Closes [e.bracket] :=
  h.emit fun stack => by rw [Event.openAfter?_singleton]; exact Event.advance?_within he stack

theorem closing (h : r.Closes []) {e : Event} (he : e.role = .closes) :
    (r.emit [e]).Closes [e.bracket] :=
  h.emit fun stack => by rw [Event.openAfter?_singleton]; exact Event.advance?_closes he stack

theorem last {e : Event} (he : e.role = .closes) (reply : Reply α) :
    Run.Closes [e.bracket] ⟨[e], reply⟩ := by
  rw [← emit_silent]
  exact (silent reply).closing he

theorem openAfter?_eq (h : r.Closes brackets) (hr : ∀ fault, r.reply ≠ .raised fault)
    (stack : List Bracket) : Event.openAfter? (brackets ++ stack) r.events = some stack := by
  obtain ⟨opened, hes, rfl | ⟨fault, hf⟩⟩ := h stack
  · exact hes
  · exact absurd hf (hr fault)

theorem follow {f : α → Input → Run β} {g : String → Input → Run β} (h : r.Closes [])
    (hf : ∀ value rest, (f value rest).Closes brackets)
    (hg : ∀ reason rest, (g reason rest).Closes brackets) : (r.follow f g).Closes brackets := by
  obtain ⟨es, reply⟩ := r
  cases reply with
  | matched value rest =>
    exact (hf value rest).emit fun stack =>
      h.openAfter?_eq (fun _ hr => by cases hr) (brackets ++ stack)
  | failed reason rest =>
    exact (hg reason rest).emit fun stack =>
      h.openAfter?_eq (fun _ hr => by cases hr) (brackets ++ stack)
  | raised fault =>
    intro stack
    obtain ⟨opened, hes, _⟩ := h (brackets ++ stack)
    refine ⟨opened ++ brackets, ?_, .inr ⟨fault, rfl⟩⟩
    rw [List.append_assoc]
    exact hes

theorem bracketed (h : r.Closes []) (keep : Bracket → Bool) :
    r.reply.Bracketed (r.events.filter fun e => keep e.bracket) := by
  have nested (hr : ∀ fault, r.reply ≠ .raised fault) :
      Event.Nested (r.events.filter fun e => keep e.bracket) :=
    Event.openAfter?_filter keep (h.openAfter?_eq hr [])
  cases hr : r.reply with
  | matched value rest => exact nested fun _ hf => by rw [hr] at hf; cases hf
  | failed reason rest => exact nested fun _ hf => by rw [hr] at hf; cases hf
  | raised fault =>
    obtain ⟨opened, hes, _⟩ := h []
    exact Event.exists_nested_append (Event.openAfter?_filter keep hes)

end Run.Closes

theorem Run.Closes.logged (debug : Bool) (name : String) {p : Step Value} {s : Input}
    (h : (p s).Closes []) : (Step.logged debug name p s).Closes [] := by
  cases debug with
  | false => exact h
  | true =>
    rw [Step.logged_eq_follow]
    refine Run.Closes.opening (e := .tried name s) ?_ rfl
    exact h.follow (fun value rest => .last (e := .matched name value rest) rfl _) fun reason _ =>
      .last (e := .failed name reason) rfl _

def Likeness.balance (debug : Bool) : Likeness Eq debug debug where
  Rel r _ := r.Closes []
  Within routine r _ := r.Closes [.script routine]
  silent _ := .silent _
  follow h hf hg := h.follow hf fun reason rest => hg (.same reason) rest rest
  logged {name _ _ _ _} _ h := h.logged debug name
  entered {routine _ _} h := h.opening (e := .entered routine) rfl
  awaited {routine _ _ _ _} h hf _ := h.follow
    (fun value rest => (hf value rest).within (e := .received routine value) rfl)
    fun _ _ => .last (e := .left routine) rfl _
  left {routine _ _} h := h.closing (e := .left routine) rfl

namespace Parser

theorem run_closes (rules : Rules) (debug : Bool) (budget : Nat) (p : Parser) (s : Input) :
    (p.run rules debug budget s).Closes [] :=
  (Alike.refl p).run (.balance debug) (fun key => .refl (rules key)) budget s

theorem enter_closes (rules : Rules) (debug : Bool) (budget : Nat) (key : Rule) (s : Input) :
    ((context rules debug budget).enter key s).Closes [] := by
  cases budget with
  | zero => exact .silent _
  | succ budget => exact run_closes rules debug budget (rules key) s

theorem step_closes (rules : Rules) (debug : Bool) (budget : Nat) (p : Parser) (s : Input) :
    (p.step (context rules debug budget) s).Closes [] := by
  rw [← run_eq_step]
  exact run_closes rules debug budget p s

end Parser

theorem Form.step_closes (rules : Rules) (debug : Bool) (budget : Nat) (form : Form) (s : Input) :
    (form.step (Parser.context rules debug budget) s).Closes [] := by
  let enter := (Parser.context rules debug budget).enter
  have henter (key : Rule) : (Likeness.balance debug).Steps (enter key) (enter key) :=
    Parser.enter_closes rules debug budget key
  have h := (Form.Alike.refl form).steps (.balance debug) henter
  rw [Parser.context_eq]
  exact h s

end ParserKit

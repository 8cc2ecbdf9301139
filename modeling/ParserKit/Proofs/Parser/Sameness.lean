import ParserKit.Grammar.Library
import ParserKit.Proofs.Parser.Alike

namespace ParserKit

structure Run.SameUpTo {α : Type} (N : Renaming) (keep : Event → Bool) (r r' : Run α) : Prop where
  events : r.events.filter keep = r'.events.filter keep
  reply : r.reply.AgreeUpTo N r'.reply

def LogsComparable (N : Renaming) (keep : Event → Bool) (debug debug' : Bool) : Prop :=
  (debug = debug' ∧ ∀ name name', N name name' → name = name') ∨
    ∀ e : Event, e.routine? = none → keep e = false

namespace Step

theorem closing_congr (name : String) {r r' : Reply Value} (h : r.Agree r') :
    closing name r = closing name r' := by
  cases h <;> rfl

theorem routine?_closing (name : String) (r : Reply Value) :
    ∀ e ∈ closing name r, e.routine? = none := by
  cases r <;> simp [closing, Event.routine?]

theorem filter_logged {keep : Event → Bool}
    (hkeep : ∀ e : Event, e.routine? = none → keep e = false)
    (debug : Bool) (name : String) (p : Step Value) (s : Input) :
    (logged debug name p s).events.filter keep = (p s).events.filter keep := by
  cases debug with
  | false => rfl
  | true =>
    have hclosing : (closing name (p s).reply).filter keep = [] :=
      List.filter_eq_nil_iff.2 fun e he => by simp [hkeep e (routine?_closing name _ e he)]
    simp [logged, hkeep (.tried name s) rfl, hclosing]

end Step

namespace Run.SameUpTo

variable {N : Renaming} {keep : Event → Bool} {α β : Type} {r r' : Run α}

theorem emit (h : r.SameUpTo N keep r') {es es' : List Event}
    (hes : es.filter keep = es'.filter keep) : (r.emit es).SameUpTo N keep (r'.emit es') where
  events := by
    rw [events_emit, events_emit, List.filter_append, List.filter_append, hes, h.events]
  reply := h.reply

theorem follow {f f' : α → Input → Run β} {g g' : String → Input → Run β}
    (h : r.SameUpTo N keep r')
    (hf : ∀ value rest, (f value rest).SameUpTo N keep (f' value rest))
    (hg : ∀ {reason reason'}, ReasonUpTo N reason reason' → ∀ rest rest',
      (g reason rest).SameUpTo N keep (g' reason' rest')) :
    (r.follow f g).SameUpTo N keep (r'.follow f' g') := by
  obtain ⟨es, reply⟩ := r
  obtain ⟨es', reply'⟩ := r'
  obtain ⟨hes, hr⟩ := h
  cases hr with
  | matched value rest => exact (hf value rest).emit hes
  | failed h rest rest' => exact (hg h rest rest').emit hes
  | raised h => exact ⟨hes, .raised h⟩

theorem logged {debug debug' : Bool} (hlog : LogsComparable N keep debug debug')
    {name name' : String} (hname : N name name') {p p' : Step Value} {s : Input}
    (h : (p s).SameUpTo N keep (p' s)) :
    (Step.logged debug name p s).SameUpTo N keep (Step.logged debug' name' p' s) := by
  refine ⟨?_, by rw [Step.reply_logged, Step.reply_logged]; exact h.reply⟩
  cases hlog with
  | inl hlog =>
    obtain ⟨rfl, hN⟩ := hlog
    obtain rfl := hN name name' hname
    cases debug with
    | false => exact h.events
    | true =>
      have hclosing := Step.closing_congr name (h.reply.agree hN)
      simp [Step.logged, List.filter_cons, hclosing, h.events]
  | inr hkeep => rw [Step.filter_logged hkeep, Step.filter_logged hkeep, h.events]

end Run.SameUpTo

def Likeness.same {N : Renaming} {keep : Event → Bool} {debug debug' : Bool}
    (hlog : LogsComparable N keep debug debug') : Likeness N debug debug' where
  Rel := Run.SameUpTo N keep
  Within _ := Run.SameUpTo N keep
  silent h := ⟨rfl, h⟩
  follow := Run.SameUpTo.follow
  logged hname h := Run.SameUpTo.logged hlog hname h
  entered h := h.emit rfl
  awaited h hf s := h.follow (fun value rest => (hf value rest).emit rfl)
    fun hreason _ _ => ⟨rfl, .failed hreason s s⟩
  left h := h.emit rfl

namespace Parser

/-- What leaves return as the rest of a failure shows neither in the answer nor in the events, so
neither in the trace nor in the log. -/
theorem failed_rest_unobserved {rules rules' : Rules}
    (hr : ∀ key, (rules key).Alike Eq (rules' key)) {p p' : Parser} (hp : p.Alike Eq p')
    (debug : Bool) (budget : Nat) (s : Input) :
    (p.run rules debug budget s).reply.Agree (p'.run rules' debug budget s).reply ∧
      (p.run rules debug budget s).events = (p'.run rules' debug budget s).events := by
  have hlog : LogsComparable Eq (fun _ => true) debug debug := .inl ⟨rfl, fun _ _ h => h⟩
  have h : (p.run rules debug budget s).SameUpTo Eq (fun _ => true)
      (p'.run rules' debug budget s) := hp.run (.same hlog) hr budget s
  exact ⟨h.reply.agree fun _ _ h => h, by simpa using h.events⟩

theorem failed_rest_unobserved_misleading :
    let p (n : Nat) :=
      (leaf "misleading" fun s => .ok (.failure "nope", s.drop n)).orElse (literal "abc")
    (p 2).Alike Eq (p 0) ∧
      ((p 2).run Library.rules true 0 ['a', 'b', 'c', 'd']).reply.Agree
        ((p 0).run Library.rules true 0 ['a', 'b', 'c', 'd']).reply ∧
      ((p 2).run Library.rules true 0 ['a', 'b', 'c', 'd']).events =
        ((p 0).run Library.rules true 0 ['a', 'b', 'c', 'd']).events := by
  intro p
  have hp : (p 2).Alike Eq (p 0) :=
    .node rfl (.orElse (.node rfl (.leaf fun s => .failed "nope" _ _)) (.refl _))
  exact ⟨hp, failed_rest_unobserved (fun _ => .refl _) hp true 0 _⟩

end Parser

end ParserKit

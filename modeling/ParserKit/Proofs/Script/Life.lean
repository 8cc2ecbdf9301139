import ParserKit.Proofs.Event.Balance

/-! The life of a script.  It is entered, runs its course, ends once, and only then does the parser
run in which it ended.  The lives of all scripts of a run are nested in each other. -/

namespace ParserKit

namespace Script

/-- How a script ends. -/
inductive Ending
  | returned (p : Parser) (rest : Input)
  | closed (reason : String)
  | gaveUp (fault : Fault)
  | interrupted (fault : Fault)

namespace Ending

def exit (routine : Routine) : Ending → List Event
  | interrupted _ => []
  | _ => [.left routine]

def goOn (ctx : Context) (start : Input) : Ending → Run Value
  | returned p rest => p.step ctx rest
  | closed reason => .silent (.failed reason start)
  | gaveUp fault => .silent (.raised fault)
  | interrupted fault => .silent (.raised fault)

end Ending

variable (ctx : Context) (routine : Routine)

def course : Script → Input → List Event × Ending
  | .done p, s => ([], .returned p s)
  | .await p next, s =>
    let r := p.step ctx s
    match r.reply with
    | .matched value rest =>
      let following := course (next value) rest
      (r.events ++ .received routine value :: following.1, following.2)
    | .failed reason _ => (r.events, .closed reason)
    | .raised fault => (r.events, .interrupted fault)
  | .raise fault, _ => ([], .gaveUp fault)

variable {ctx}

theorem step_eq_course (start : Input) : (body : Script) → (s : Input) →
    body.step ctx routine start s =
      ((body.course ctx routine s).2.goOn ctx start).emit
        ((body.course ctx routine s).1 ++ (body.course ctx routine s).2.exit routine)
  | .done p, s => rfl
  | .await p next, s => by
    show Step.await routine start (p.step ctx) (fun v => (next v).step ctx routine start) s = _
    rw [Step.await, course]
    cases (p.step ctx s).reply with
    | matched value rest =>
      dsimp only
      rw [step_eq_course start (next value) rest]
      simp
    | failed reason rest => simp [Ending.goOn, Ending.exit, Run.emit_silent]
    | raised fault => simp [Ending.goOn, Ending.exit, Run.emit_silent]
  | .raise fault, s => rfl

theorem openAfter?_course (hclosed : ∀ (p : Parser) (s : Input), (p.step ctx s).Closes []) :
    (body : Script) → (s : Input) → ∃ opened,
      Event.openAfter? [.script routine] (body.course ctx routine s).1 =
          some (opened ++ [.script routine]) ∧
        (opened = [] ∨ ∃ fault, (body.course ctx routine s).2 = .interrupted fault)
  | .done p, s => ⟨[], rfl, .inl rfl⟩
  | .await p next, s => by
    have hbefore (hr : ∀ fault, (p.step ctx s).reply ≠ .raised fault) :
        Event.openAfter? [.script routine] (p.step ctx s).events = some [.script routine] :=
      (hclosed p s).openAfter?_eq hr _
    rw [course]
    cases hr : (p.step ctx s).reply with
    | matched value rest =>
      obtain ⟨opened, hes, hopened⟩ := openAfter?_course hclosed (next value) rest
      refine ⟨opened, ?_, hopened⟩
      have hreceived : Event.advance? [.script routine] (.received routine value) =
          some [.script routine] := Event.advance?_within (e := .received routine value) rfl []
      dsimp only
      rw [Event.openAfter?_append_of_eq (hbefore (by simp [hr])), Event.openAfter?_cons, hreceived]
      exact hes
    | failed reason rest => exact ⟨[], hbefore (by simp [hr]), .inl rfl⟩
    | raised fault =>
      obtain ⟨opened, hes, _⟩ := hclosed p s [.script routine]
      exact ⟨opened, hes, .inr ⟨fault, rfl⟩⟩
  | .raise fault, s => ⟨[], rfl, .inl rfl⟩

theorem course_bracketed (hclosed : ∀ (p : Parser) (s : Input), (p.step ctx s).Closes [])
    (body : Script) (s : Input) :
    match body.course ctx routine s with
    | (es, .interrupted _) => ∃ missing, Event.Nested (.entered routine :: (es ++ missing))
    | (es, _) => Event.Nested (.entered routine :: (es ++ [.left routine])) := by
  obtain ⟨opened, hes, hopened⟩ := openAfter?_course routine hclosed body s
  have hentered : Event.advance? [] (.entered routine) = some [.script routine] := rfl
  have hleft : Event.openAfter? [.script routine] [.left routine] = some [] := by
    rw [Event.openAfter?_singleton]
    exact Event.advance?_closes (e := .left routine) rfl []
  have nested (h : opened = []) :
      Event.Nested (.entered routine :: ((body.course ctx routine s).1 ++ [.left routine])) := by
    rw [h, List.nil_append] at hes
    rw [Event.Nested, Event.openAfter?_cons, hentered, Option.bind_some,
      Event.openAfter?_append_of_eq hes]
    exact hleft
  split
  · next es fault heq =>
    rw [heq] at hes
    have hword : Event.openAfter? [] (.entered routine :: es) =
        some (opened ++ [.script routine]) := hes
    exact Event.exists_nested_append hword
  · next es ending hending heq =>
    rw [heq] at nested hopened
    refine nested (hopened.resolve_right ?_)
    rintro ⟨fault, rfl⟩
    exact hending fault rfl

end Script

namespace Event

/-- The entries and exits of the scripts of some routines, and the values which these receive.  The
trace is made up of those of the routines which are traced. -/
def lives (keep : Routine → Bool) (es : List Event) : List Event :=
  es.filter fun e => e.routine?.any keep

end Event

namespace Parser

/-- Whichever routines are looked at, their scripts are entered and left as nested brackets, unless
a fault has ended the run.  A script is left before the parser runs in which it ended; a fault of an
awaited parser keeps it from being left. -/
theorem scripts_end_once (rules : Rules) (debug : Bool) (budget : Nat) :
    (∀ (keep : Routine → Bool) (p : Parser) (s : Input),
      let run := p.run rules debug budget s
      run.reply.Bracketed (Event.lives keep run.events)) ∧
    ∀ (routine : Routine) (body : Script) (s : Input),
      let ctx := context rules debug budget
      let (es, ending) := body.course ctx routine s
      (Form.script routine body).step ctx s =
          (ending.goOn ctx s).emit (.entered routine :: (es ++ ending.exit routine)) ∧
        match ending with
        | .interrupted _ => ∃ missing, Event.Nested (.entered routine :: (es ++ missing))
        | _ => Event.Nested (.entered routine :: (es ++ [.left routine])) := by
  constructor
  · intro keep p s run
    have hkeep : Event.lives keep run.events =
        run.events.filter fun e => e.bracket.isScript keep :=
      List.filter_congr fun e _ => by cases e <;> rfl
    rw [hkeep]
    exact (run_closes rules debug budget p s).bracketed _
  · intro routine body s ctx
    have hnested := Script.course_bracketed routine (step_closes rules debug budget) body s
    have hstep : (Form.script routine body).step ctx s =
        ((body.course ctx routine s).2.goOn ctx s).emit (.entered routine ::
          ((body.course ctx routine s).1 ++ (body.course ctx routine s).2.exit routine)) := by
      show (body.step ctx routine s s).emit [.entered routine] = _
      rw [Script.step_eq_course, Run.emit_emit]
      rfl
    generalize body.course ctx routine s = course at hnested hstep
    obtain ⟨es, ending⟩ := course
    exact ⟨hstep, by cases ending <;> exact hnested⟩

end Parser

end ParserKit

import ParserKit.Proofs.Run.Agreement
import ParserKit.Proofs.Run.Follow

namespace ParserKit

open ParserKit.Parser

namespace Script

def binds : Script → Parser
  | .done p => p
  | .await p next => p.bind fun v => (next v).binds
  | .raise fault => .raise fault

/-- Two scripts which do the same on an input as long as what they await matches.  Once it does not,
they may differ in all that would come after. -/
inductive SameCourse (ctx : Context) : Input → Script → Script → Prop
  | done (s : Input) (p : Parser) : SameCourse ctx s (.done p) (.done p)
  | raise (s : Input) (fault : Fault) : SameCourse ctx s (.raise fault) (.raise fault)
  | stops {s : Input} {p : Parser} (next next' : Value → Script) :
      (∀ v rest, p.answer ctx s ≠ .matched v rest) →
        SameCourse ctx s (.await p next) (.await p next')
  | goesOn {s rest : Input} {p : Parser} {v : Value} {next next' : Value → Script} :
      p.answer ctx s = .matched v rest → SameCourse ctx rest (next v) (next' v) →
        SameCourse ctx s (.await p next) (.await p next')

variable {ctx : Context} {routine : Routine}

theorem answer_binds (start : Input) : (body : Script) → (s : Input) →
    (body.answer ctx routine start s).Agree (body.binds.answer ctx s)
  | .done p, s => by
    rw [answer_done]
    exact .refl _
  | .await p next, s => by
    rw [binds, answer_bind, answer_await]
    exact (Reply.Agree.refl _).andThen (fun v rest => answer_binds start (next v) rest) start s
  | .raise _, _ => .refl _

theorem answer_times (start : Input) (p : Parser) (n : Nat) (next : List Value → Script)
    (s : Input) :
    ((Script.times p n next).answer ctx routine start s).Agree
      ((answerEach ctx (List.replicate n p) s).andThen s fun vs rest =>
        (next vs).answer ctx routine start rest) := by
  induction n generalizing s next with
  | zero => exact .refl _
  | succ n ih =>
    rw [times, answer_await, List.replicate_succ]
    refine .trans ?_ (answerEach_andThen p _ s s s _).symm
    exact (Reply.Agree.refl _).andThen (fun v rest => ih (fun vs => next (v :: vs)) rest) start s

theorem step_await (start : Input) (p : Parser) (next : Value → Script) (s : Input) :
    (await p next).step ctx routine start s = (p.step ctx s).follow
      (fun v rest => ((next v).step ctx routine start rest).emit [.received routine v])
      fun reason _ => ⟨[.left routine], .failed reason start⟩ :=
  Step.await_eq_follow routine start (p.step ctx) (fun v => (next v).step ctx routine start) s

theorem SameCourse.step_eq (start : Input) {body body' : Script} {s : Input}
    (h : SameCourse ctx s body body') :
    body.step ctx routine start s = body'.step ctx routine start s := by
  induction h with
  | done s p => rfl
  | raise s fault => rfl
  | stops next next' hp =>
    rw [step_await, step_await]
    exact Run.follow_congr (fun v rest hr => absurd hr (hp v rest)) _
  | goesOn hp _ ih =>
    rw [step_await, step_await]
    refine Run.follow_congr (fun v rest hr => ?_) _
    obtain ⟨rfl, rfl⟩ := Reply.matched.inj (hp.symm.trans hr)
    rw [ih]

end Script

/-- The steps of a routine: to await a parser, with or without use for its value, or the same parser
a number of times. -/
inductive Plan
  | done (p : Parser)
  | bind (p : Parser) (next : Value → Plan)
  | skip (p : Parser) (next : Plan)
  | times (p : Parser) (n : Nat) (next : Value → Plan)
  | raise (fault : Fault)

namespace Plan

def script : Plan → Script
  | done p => .done p
  | bind p next => .await p fun v => (next v).script
  | skip p next => .await p fun _ => next.script
  | times p n next => .times p n fun vs => (next (.list vs)).script
  | raise fault => .raise fault

def binds : Plan → Parser
  | done p => p
  | bind p next => p.bind fun v => (next v).binds
  | skip p next => p.bind fun _ => next.binds
  | times p n next => (all (List.replicate n p)).bind fun vs => (next vs).binds
  | raise fault => .raise fault

variable {ctx : Context} {routine : Routine}

theorem answer_script (start : Input) : (plan : Plan) → (s : Input) →
    (plan.script.answer ctx routine start s).Agree (plan.binds.answer ctx s)
  | .done p, s => by
    rw [script, Script.answer_done]
    exact .refl _
  | .bind p next, s => by
    rw [script, Script.answer_await, binds, answer_bind]
    exact (Reply.Agree.refl _).andThen (fun v rest => answer_script start (next v) rest) start s
  | .skip p next, s => by
    rw [script, Script.answer_await, binds, answer_bind]
    exact (Reply.Agree.refl _).andThen (fun _ rest => answer_script start next rest) start s
  | .times p n next, s => by
    rw [script, binds, answer_bind, answer_all]
    refine (Script.answer_times start p n _ s).trans ?_
    cases answerEach ctx (List.replicate n p) s with
    | matched vs rest => exact answer_script start (next (.list vs)) rest
    | failed reason rest => exact .failed reason _ _
    | raised fault => exact .raised fault
  | .raise _, _ => .refl _

end Plan

namespace Parser

/-- A script answers as the binds which it stands for, also where it awaits one parser a number of
times, and it is not looked at past the first parser which does not match. -/
theorem script_agrees_binds (rules : Rules) (debug : Bool) (budget : Nat) (routine : Routine)
    (s : Input) :
    (∀ body : Script, ((script routine body).run rules debug budget s).reply.Agree
      (body.binds.run rules debug budget s).reply) ∧
    (∀ plan : Plan, ((script routine plan.script).run rules debug budget s).reply.Agree
      (plan.binds.run rules debug budget s).reply) ∧
    ∀ body body' : Script, Script.SameCourse (context rules debug budget) s body body' →
      (script routine body).run rules debug budget s =
        (script routine body').run rules debug budget s := by
  refine ⟨fun body => ?_, fun plan => ?_, fun body body' h => ?_⟩
  · rw [reply_run, reply_run, answer_script]
    exact body.answer_binds s s
  · rw [reply_run, reply_run, answer_script]
    exact plan.answer_script s s
  · rw [run_eq_step, run_eq_step]
    show Step.logged _ routine.name (fun _ => (body.step _ routine s s).emit [.entered routine]) s =
      Step.logged _ routine.name (fun _ => (body'.step _ routine s s).emit [.entered routine]) s
    rw [h.step_eq s]

theorem script_agrees_binds_after_failure :
    let body (last : Script) : Script :=
      .await (char 'a') fun _ => .await (fail "stop here") fun _ => last
    (script ⟨"steps", true⟩ (body (.raise (.aborted "reached")))).run Library.rules true 0
        ['a', 'b', 'c'] =
      (script ⟨"steps", true⟩ (body (.done (succeed .nothing)))).run Library.rules true 0
        ['a', 'b', 'c'] := by
  intro body
  have hchar (ctx : Context) :
      (char 'a').answer ctx ['a', 'b', 'c'] = .matched (.text "a") ['b', 'c'] :=
    (answer_leaf ctx ..).trans rfl
  refine (script_agrees_binds Library.rules true 0 ⟨"steps", true⟩ _).2.2 _ _ ?_
  refine .goesOn (hchar _) (.stops _ _ fun v rest h => ?_)
  rw [answer_fail] at h
  cases h

end Parser

end ParserKit

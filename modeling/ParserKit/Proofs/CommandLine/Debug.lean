import ParserKit.CommandLine.Basic
import ParserKit.Proofs.CommandLine.Arguments
import ParserKit.Proofs.Event.Log
import ParserKit.Proofs.Formula.Reading

namespace ParserKit

theorem Formula.exists_expr_of_parse {text : String} {v : Value}
    (h : expression.parse text = .ok v) : ∃ e, v = .expr e := by
  have hreads := reads_runLibrary false text.toList
  rw [Parser.parse] at h
  cases hreply : (expression.runLibrary false text.toList).reply with
  | matched value rest =>
    rw [hreply] at h
    cases h
    obtain ⟨w, e, _, he, _⟩ := hreads.matched_iff.1 hreply
    exact ⟨e, he⟩
  | failed reason rest => rw [hreply] at h; cases h
  | raised fault => rw [hreply] at h; cases h

namespace CommandLine

namespace Ending

def ofResult (limit : DigitLimit) : Except Error Value → Ending
  | .ok value =>
    match printed limit value with
    | .ok out => .exited 0 (out ++ "\n") ""
    | .error fault => .crashed fault
  | .error (.noMatch reason) => .exited 1 "" ("error: " ++ reason ++ "\n")
  | .error (.fault fault) => .crashed fault

def logged (log : String) : Ending → Ending
  | exited status stdout stderr => exited status stdout (log ++ stderr)
  | stopped stop => stopped stop
  | crashed fault => crashed fault

end Ending

variable (settings : Settings) {c : Command} {text : String}

theorem Command.function_eq (c : Command) (text : String) : c.function text =
    (c.parser.parse text).bind fun value => (c.finish value).mapError .fault := by
  have hexpr (f : Expr → Except Error Value) (g : Value → Except Error Value)
      (hg : ∀ e, g (.expr e) = f e) :
      (Formula.parse text).bind f = (Formula.expression.parse text).bind g := by
    -- No other values are parsed than trees, so how the others are treated does not matter.
    rw [Formula.parse]
    cases h : Formula.expression.parse text with
    | ok v =>
      obtain ⟨e, rfl⟩ := Formula.exists_expr_of_parse h
      exact (hg e).symm
    | error e => rfl
  have hself (result : Except Error Value) : result = result.bind fun v => .ok v := by
    cases result <;> rfl
  cases c with
  | ast =>
    have hmap : (Formula.parse text).map Value.expr =
        (Formula.parse text).bind fun e => .ok (.expr e) := by
      cases Formula.parse text <;> rfl
    exact hmap.trans (hexpr _ _ fun _ => rfl)
  | eval => exact hexpr _ _ fun _ => rfl
  | json => exact hself _
  | rleDecode => exact hself _
  | rleEncode => exact hself _

namespace Request

theorem report_plain (r : Request) (h : r.debug = false) : r.report settings r.parse =
    match r.parse.reply with
    | .failed reason _ => "error: " ++ reason ++ "\n"
    | _ => "" := by
  have hlog : Event.recordsWith settings.limit r.source.display r.parse.events = [] := by
    refine Event.recordsWith_eq_nil ?_ _ _
    rw [parse, h]
    exact Parser.run_quiet ..
  rw [report, hlog]
  cases r.parse.reply <;> rfl

theorem stderr_of_run_exited (r : Request) {status : Nat} {stdout err : String}
    (h : r.run settings = .exited status stdout err) : r.stderr settings = err := by
  rw [run] at h
  rw [stderr]
  cases hreply : r.parse.reply with
  | matched value rest =>
    rw [hreply] at h
    dsimp only at h
    cases hout : (r.command.finish value).bind (printed settings.limit) with
    | ok out => rw [hout] at h; cases h; rfl
    | error fault => rw [hout] at h; cases h
  | failed reason rest => rw [hreply] at h; cases h; rfl
  | raised fault => rw [hreply] at h; cases h

theorem run_plain (c : Command) (text : String) :
    run settings ⟨c, .text text, false⟩ = .ofResult settings.limit (c.function text) := by
  let r : Request := ⟨c, .text text, false⟩
  have hparse : c.parser.parse text = r.parse.reply.value? := rfl
  show r.run settings = _
  rw [Command.function_eq, hparse, run, r.report_plain settings rfl]
  cases r.parse.reply with
  | matched value rest =>
    show _ = Ending.ofResult settings.limit ((r.command.finish value).mapError .fault)
    dsimp only
    cases r.command.finish value with
    | ok v =>
      show _ = Ending.ofResult settings.limit (.ok v)
      rw [Ending.ofResult]
      rfl
    | error fault => rfl
  | failed reason rest => rfl
  | raised fault => rfl

end Request

namespace Request

end Request

theorem stderr_of_exited {args : List String} {status : Nat} {stdout err : String}
    (h : runWith settings args = .exited status stdout err) :
    stderrWith settings args = .ok err := by
  rw [runWith] at h
  rw [stderrWith]
  cases hrequest : Request.ofArguments args with
  | error stop => rw [hrequest] at h; cases h
  | ok request =>
    rw [hrequest] at h
    exact congrArg Except.ok (request.stderr_of_run_exited settings h)

end CommandLine

end ParserKit

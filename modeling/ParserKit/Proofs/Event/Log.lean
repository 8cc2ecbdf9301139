import ParserKit.Proofs.Event.Balance
import ParserKit.Proofs.Parser.Sameness
import ParserKit.Proofs.Value.Limit

namespace ParserKit

namespace Event

def attempts (es : List Event) : List Event := es.filter fun e => e.bracket.isAttempt

@[simp] theorem attempts_append (es fs : List Event) :
    attempts (es ++ fs) = attempts es ++ attempts fs :=
  List.filter_append ..

def writable (limit : DigitLimit) : Event → Bool
  | matched _ value _ => value.writable limit
  | _ => true

variable {limit : DigitLimit} {es : List Event}

theorem writable_none (e : Event) : e.writable none = true := by
  cases e with
  | matched name value rest => exact value.writable_none
  | _ => rfl

theorem isSome_recordWith? (limit : DigitLimit) (display : Input → String) (e : Event) :
    (e.recordWith? limit display).isSome = e.bracket.isAttempt := by
  cases e <;> rfl

theorem records_attempts (limit : DigitLimit) (display : Input → String) (es : List Event) :
    (attempts es).map (recordWith? limit display) = (recordsWith limit display es).map some := by
  rw [recordsWith, List.map_filterMap_some_eq_filter_map_isSome, List.filter_map]
  exact congrArg (List.map _) (List.filter_congr fun e _ => (isSome_recordWith? limit display e).symm)

theorem recordsWith_eq_nil (h : attempts es = []) (limit : DigitLimit)
    (display : Input → String) : recordsWith limit display es = [] := by
  have hrecords := records_attempts limit display es
  rw [h, List.map_nil] at hrecords
  exact List.map_eq_nil_iff.1 hrecords.symm

section Matched

variable {value : Value} (name : String) (rest : Input) (display : Input → String)

theorem recordWith?_matched (h : value.writable limit = true) :
    (matched name value rest).recordWith? limit display =
      some (.ok ("matched " ++ name ++ ": " ++ value.spelling ++ ", remaining " ++
        display rest)) := by
  rw [recordWith?, Value.display_of_writable h]
  rfl

theorem recordWith?_matched_of_not_writable (h : value.writable limit = false) :
    (matched name value rest).recordWith? limit display = some (.error .notDecimal) := by
  rw [recordWith?, Value.display_of_not_writable h]
  rfl

end Matched

def line? (limit : DigitLimit) (e : Event) : Option String :=
  (e.recordWith? limit displayInput).bind Except.toOption

theorem isSome_line? (limit : DigitLimit) (e : Event) :
    (e.line? limit).isSome = (e.writable limit && e.bracket.isAttempt) := by
  cases e with
  | matched name value rest =>
    cases hw : value.writable limit with
    | true =>
      rw [line?, recordWith?_matched name rest displayInput hw, writable, hw]
      rfl
    | false =>
      rw [line?, recordWith?_matched_of_not_writable name rest displayInput hw, writable, hw]
      rfl
  | _ => rfl

theorem recordWith?_eq_line? {e : Event} (h : e.writable limit = true) :
    e.recordWith? limit displayInput = (e.line? limit).map .ok := by
  cases e with
  | matched name value rest =>
    rw [line?, recordWith?_matched name rest displayInput h]
    rfl
  | _ => rfl

theorem lines_attempts (limit : DigitLimit) (es : List Event) :
    ((attempts es).filter (writable limit)).map (recordWith? limit displayInput) =
      (logWithin limit es).map fun line => some (.ok line) := by
  have hlines : logWithin limit es = es.filterMap (line? limit) := List.filterMap_filterMap
  rw [attempts, List.filter_filter]
  calc (es.filter fun e => e.writable limit && e.bracket.isAttempt).map
        (recordWith? limit displayInput)
      = (es.filter fun e => e.writable limit && e.bracket.isAttempt).map
          (fun e => (e.line? limit).map .ok) :=
        List.map_congr_left fun e he =>
          recordWith?_eq_line? (Bool.and_eq_true_iff.1 (List.mem_filter.1 he).2).1
    _ = (es.filter fun e => (e.line? limit).isSome).map (fun e => (e.line? limit).map .ok) := by
        simp only [isSome_line?]
    _ = ((es.map (line? limit)).filter Option.isSome).map (Option.map .ok) := by
        rw [List.filter_map, List.map_map]
        rfl
    _ = (logWithin limit es).map fun line => some (.ok line) := by
        rw [← List.map_filterMap_some_eq_filter_map_isSome, hlines, List.map_map]
        rfl

theorem log_attempts (es : List Event) :
    (attempts es).map (recordWith? none displayInput) =
      (log es).map fun line => some (.ok line) := by
  have hlines := lines_attempts none es
  rwa [List.filter_eq_self.2 fun e _ => writable_none e] at hlines

end Event

def Run.Quiet {α : Type} (r : Run α) : Prop := Event.attempts r.events = []

namespace Run.Quiet

variable {α β : Type} {r : Run α}

theorem emit (h : r.Quiet) {es : List Event} (hes : Event.attempts es = []) :
    (r.emit es).Quiet := by
  rw [Quiet, events_emit, Event.attempts_append, hes, h, List.append_nil]

theorem follow {f : α → Input → Run β} {g : String → Input → Run β} (h : r.Quiet)
    (hf : ∀ value rest, (f value rest).Quiet) (hg : ∀ reason rest, (g reason rest).Quiet) :
    (r.follow f g).Quiet := by
  obtain ⟨es, reply⟩ := r
  cases reply with
  | matched value rest => exact (hf value rest).emit h
  | failed reason rest => exact (hg reason rest).emit h
  | raised fault => exact h

end Run.Quiet

def Likeness.quiet : Likeness Eq false false where
  Rel r _ := r.Quiet
  Within _ r _ := r.Quiet
  silent _ := rfl
  follow h hf hg := h.follow hf fun reason rest => hg (.same reason) rest rest
  logged _ h := h
  entered h := h.emit rfl
  awaited h hf _ := h.follow (fun value rest => (hf value rest).emit rfl) fun _ _ => rfl
  left h := h.emit rfl

namespace Step

theorem attempts_closing (name : String) (r : Reply Value) :
    Event.attempts (closing name r) = closing name r := by
  cases r <;> rfl

theorem attempts_logged (name : String) (p : Step Value) (s : Input) :
    Event.attempts (logged true name p s).events =
      .tried name s :: (Event.attempts (p s).events ++ closing name (p s).reply) := by
  have hlogged : (logged true name p s).events =
      [.tried name s] ++ ((p s).events ++ closing name (p s).reply) := rfl
  rw [hlogged, Event.attempts, List.filter_append, List.filter_append]
  exact congrArg (fun es => .tried name s :: (Event.attempts (p s).events ++ es))
    (attempts_closing name (p s).reply)

end Step

namespace Parser

theorem run_quiet (rules : Rules) (budget : Nat) (p : Parser) (s : Input) :
    (p.run rules false budget s).Quiet :=
  (Alike.refl p).run .quiet (fun key => .refl (rules key)) budget s

theorem reply_run_agree (rules : Rules) (debug debug' : Bool) (budget : Nat) (p : Parser)
    (s : Input) : (p.run rules debug budget s).reply.Agree (p.run rules debug' budget s).reply := by
  have hlog : LogsComparable Eq (fun e => e.routine?.isSome) debug debug' :=
    .inr fun e he => by simp [he]
  have h : (p.run rules debug budget s).SameUpTo Eq (fun e => e.routine?.isSome)
      (p.run rules debug' budget s) :=
    (Alike.refl p).run (.same hlog) (fun key => .refl (rules key)) budget s
  exact h.reply.agree fun _ _ h => h

/-- A run with the log kept gives the same answer as one without.  Its log starts with the attempt
of the parser and ends with its answer, and what is in between is nested; after a fault the log is
the beginning of such a word, in which the attempt of the parser is still open.  Each attempt has a
line of its own, unless a value in it has more digits than a limit allows. -/
theorem log_bracketed (rules : Rules) (name : String) (form : Form) (budget : Nat) (s : Input) :
    let run (debug : Bool) := (Parser.node name form).run rules debug budget s
    (run true).reply.Agree (run false).reply ∧
      (∃ inner, Event.attempts (run true).events =
          .tried name s :: (inner ++ Step.closing name (run true).reply) ∧
        (run true).reply.Bracketed inner) ∧
      (Event.attempts (run true).events).map (Event.recordWith? none Event.displayInput) =
        (Event.log (run true).events).map (fun line => some (.ok line)) ∧
      ∀ limit, ((Event.attempts (run true).events).filter (Event.writable limit)).map
          (Event.recordWith? limit Event.displayInput) =
        (Event.logWithin limit (run true).events).map fun line => some (.ok line) := by
  intro run
  let ctx := context rules true budget
  have hrun : run true = Step.logged true name (form.step ctx) s := by
    cases budget <;> rfl
  refine ⟨reply_run_agree .., ⟨Event.attempts (form.step ctx s).events, ?_, ?_⟩,
    Event.log_attempts _, fun limit => Event.lines_attempts limit _⟩
  · rw [hrun, Step.attempts_logged, Step.reply_logged]
  · rw [hrun, Step.reply_logged]
    exact (form.step_closes rules true budget s).bracketed Bracket.isAttempt

end Parser

end ParserKit

import ParserKit.Parser.Run
import ParserKit.Parser.Repeat
import ParserKit.Proofs.Run.Agreement

namespace ParserKit

namespace Reply

variable {α β : Type}

@[simp] theorem andThen_matched (a : α) (rest start : Input) (next : α → Input → Reply β) :
    (matched a rest).andThen start next = next a rest := rfl

@[simp] theorem andThen_failed (reason : String) (rest start : Input)
    (next : α → Input → Reply β) :
    (failed reason rest).andThen start next = failed reason start := rfl

@[simp] theorem andThen_raised (fault : Fault) (start : Input) (next : α → Input → Reply β) :
    (raised fault).andThen start next = raised fault := rfl

@[simp] theorem orElse_matched (a : α) (rest : Input) (r : Reply α) :
    (matched a rest).orElse r = matched a rest := rfl

@[simp] theorem orElse_failed (reason : String) (rest : Input) (r : Reply α) :
    (failed reason rest).orElse r = r := rfl

@[simp] theorem orElse_raised (fault : Fault) (r : Reply α) :
    (raised fault).orElse r = raised fault := rfl

@[simp] theorem map_matched (f : α → β) (a : α) (rest : Input) :
    (matched a rest).map f = matched (f a) rest := rfl

@[simp] theorem map_failed (f : α → β) (reason : String) (rest : Input) :
    (failed reason rest : Reply α).map f = failed reason rest := rfl

@[simp] theorem map_raised (f : α → β) (fault : Fault) :
    (raised fault : Reply α).map f = raised fault := rfl

theorem ofOutcome_ok {v : Value} (h : v.isFailure = false) (rest : Input) :
    ofOutcome (.ok v) rest = matched v rest := by
  cases v <;> first | rfl | exact Bool.noConfusion h

@[simp] theorem ofOutcome_failure (reason : String) (rest : Input) :
    ofOutcome (.ok (.failure reason)) rest = failed reason rest := rfl

@[simp] theorem ofOutcome_error (fault : Fault) (rest : Input) :
    ofOutcome (.error fault) rest = raised fault := rfl

end Reply

namespace Script

def answer (ctx : Context) (routine : Routine) (start : Input) (body : Script) (s : Input) :
    Reply Value :=
  (body.step ctx routine start s).reply

end Script

namespace Parser

variable (ctx : Context)

def answer (p : Parser) (s : Input) : Reply Value := (p.step ctx s).reply

def answers (p : Parser) (s : Input) : Reply (List Value) :=
  (Step.many p.name (p.step ctx) s).reply

def answerEach (ps : List Parser) (s : Input) : Reply (List Value) :=
  (Step.each (Parser.steps ctx ps) s).reply

@[simp] theorem answer_node (name : String) (form : Form) (s : Input) :
    (node name form).answer ctx s = (form.step ctx s).reply :=
  Step.reply_logged ctx.debug name (form.step ctx) s

@[simp] theorem answer_raise (fault : Fault) (s : Input) :
    (raise fault).answer ctx s = .raised fault := rfl

@[simp] theorem answer_named (name : String) (p : Parser) (s : Input) :
    (p.named name).answer ctx s = p.answer ctx s := by
  cases p with
  | node name' form => rw [named_node, answer_node, answer_node]
  | raise fault => rfl

@[simp] theorem answer_leaf (name : String) (f : Input → Except Fault (Value × Input)) (s : Input) :
    (leaf name f).answer ctx s =
      match f s with
      | .ok (value, rest) => .ofOutcome (.ok value) rest
      | .error fault => .raised fault := by
  rw [leaf, answer_node]
  show (Step.leaf f s).reply = _
  rw [Step.leaf]
  cases f s <;> rfl

@[simp] theorem answer_succeedAs (name : String) {v : Value} (h : v.isFailure = false) (s : Input) :
    (succeedAs name v).answer ctx s = .matched v s :=
  (answer_leaf ..).trans (Reply.ofOutcome_ok h s)

@[simp] theorem answer_succeed {v : Value} (h : v.isFailure = false) (s : Input) :
    (succeed v).answer ctx s = .matched v s :=
  answer_succeedAs ctx "pure" h s

@[simp] theorem answer_fail (reason : String) (s : Input) :
    (fail reason).answer ctx s = .failed reason s := answer_leaf ..

@[simp] theorem answer_tryMap (p : Parser) (f : Value → Except Fault Value) (s : Input) :
    (p.tryMap f).answer ctx s = (p.answer ctx s).andThen s fun v rest => .ofOutcome (f v) rest := by
  rw [tryMap, answer_node]
  exact Step.reply_apply (p.step ctx) f s

theorem answer_map (p : Parser) (f : Value → Value) (s : Input) :
    (p.map f).answer ctx s =
      (p.answer ctx s).andThen s fun v rest => .ofOutcome (.ok (f v)) rest := by
  rw [map, answer_tryMap]

@[simp] theorem answer_bind (p : Parser) (next : Value → Parser) (s : Input) :
    (p.bind next).answer ctx s =
      (p.answer ctx s).andThen s fun v rest => (next v).answer ctx rest := by
  rw [bind, answer_node]
  exact Step.reply_bind (p.step ctx) (fun v => (next v).step ctx) s

@[simp] theorem answer_orElse (p q : Parser) (s : Input) :
    (p.orElse q).answer ctx s = (p.answer ctx s).orElse (q.answer ctx s) := by
  rw [orElse, answer_node]
  exact Step.reply_orElse (p.step ctx) (q.step ctx) s

@[simp] theorem answer_first_nil (s : Input) :
    (first []).answer ctx s = .failed "no match" s := by
  rw [first, answer_node]
  exact Step.reply_first_nil s

@[simp] theorem answer_first_cons (p : Parser) (ps : List Parser) (s : Input) :
    (first (p :: ps)).answer ctx s = (p.answer ctx s).orElse ((first ps).answer ctx s) := by
  rw [first, answer_node, first, answer_node]
  exact Step.reply_first_cons (p.step ctx) (Parser.steps ctx ps) s

theorem first_failed {ps : List Parser} {s rest : Input} {reason : String}
    (h : (first ps).answer ctx s = .failed reason rest) : reason = "no match" ∧ rest = s := by
  induction ps with
  | nil =>
    rw [answer_first_nil] at h
    injection h with hreason hrest
    exact ⟨hreason.symm, hrest.symm⟩
  | cons p ps ih =>
    rw [answer_first_cons] at h
    cases hp : p.answer ctx s with
    | matched _ _ => rw [hp] at h; cases h
    | failed _ _ =>
      rw [hp] at h
      exact ih h
    | raised _ => rw [hp] at h; cases h

theorem answer_pair (p q : Parser) (s : Input) :
    (pair p q).answer ctx s =
      (p.answer ctx s).andThen s fun a rest =>
        (q.answer ctx rest).andThen rest fun b rest => .matched (.tuple [a, b]) rest := by
  rw [pair, answer_named, answer_bind]
  simp only [answer_map]
  rfl

theorem answer_map_pair (p q : Parser) (f : Value → Value) (s : Input) :
    ((pair p q).map f).answer ctx s =
      (p.answer ctx s).andThen s fun a rest =>
        (q.answer ctx rest).andThen s fun b rest => .ofOutcome (.ok (f (.tuple [a, b]))) rest := by
  rw [answer_map, answer_pair]
  cases p.answer ctx s with
  | matched _ rest =>
    simp only [Reply.andThen_matched]
    cases q.answer ctx rest <;> rfl
  | failed _ _ => rfl
  | raised _ => rfl

theorem answer_skipThen (p q : Parser) (s : Input) :
    (p.skipThen q).answer ctx s =
      (p.answer ctx s).andThen s fun _ rest =>
        (q.answer ctx rest).andThen s fun b rest => .ofOutcome (.ok b) rest :=
  answer_map_pair ctx p q (·.item 1) s

theorem answer_thenSkip (p q : Parser) (s : Input) :
    (p.thenSkip q).answer ctx s =
      (p.answer ctx s).andThen s fun a rest =>
        (q.answer ctx rest).andThen s fun _ rest => .ofOutcome (.ok a) rest :=
  answer_map_pair ctx p q (·.item 0) s

theorem answer_triple (p q r : Parser) (s : Input) :
    (triple p q r).answer ctx s =
      (p.answer ctx s).andThen s fun a rest =>
        (q.answer ctx rest).andThen rest fun b rest =>
          (r.answer ctx rest).andThen rest fun c rest => .matched (.tuple [a, b, c]) rest := by
  rw [triple, answer_named, answer_bind]
  simp only [answer_bind, answer_map]
  rfl

theorem answer_all (ps : List Parser) (s : Input) :
    (all ps).answer ctx s = (answerEach ctx ps s).map .list := by
  rw [all, answer_node]
  exact Step.reply_map Value.list (Step.each (Parser.steps ctx ps)) s

@[simp] theorem answerEach_nil (s : Input) : answerEach ctx [] s = .matched [] s := rfl

@[simp] theorem answerEach_cons (p : Parser) (ps : List Parser) (s : Input) :
    answerEach ctx (p :: ps) s = (p.answer ctx s).andThen s fun v rest =>
      (answerEach ctx ps rest).andThen s fun vs rest => .matched (v :: vs) rest := by
  exact Step.reply_each_cons (p.step ctx) (Parser.steps ctx ps) s

theorem answer_many (p : Parser) (s : Input) :
    p.many.answer ctx s = (p.answers ctx s).map .list := by
  rw [many, answer_node]
  exact Step.reply_map Value.list (Step.many p.name (p.step ctx)) s

theorem answer_sepBy (separator p : Parser) (s : Input) :
    (sepBy separator p).answer ctx s =
      ((sepBy1 separator p).answer ctx s).orElse (.matched (.list []) s) := by
  rw [sepBy, answer_orElse, answer_map, answer_succeed ctx rfl]
  rfl

theorem answer_absent (p : Parser) (s : Input) :
    p.absent.answer ctx s = match p.answer ctx s with
      | .matched _ _ => .failed ("unexpected " ++ p.name) s
      | .failed _ _ => .matched .nothing s
      | .raised fault => .raised fault := by
  rw [absent, answer_node]
  show (Step.absent p.name (p.step ctx) s).reply = _
  rw [Step.absent, answer]
  cases (p.step ctx s).reply <;> rfl

@[simp] theorem answer_rule (key : Rule) (name : String) (s : Input) :
    (rule key name).answer ctx s = (ctx.enter key s).reply := by
  rw [rule, answer_node]
  rfl

@[simp] theorem answer_script (routine : Routine) (body : Script) (s : Input) :
    (script routine body).answer ctx s = body.answer ctx routine s s := by
  rw [script, answer_node]
  exact Run.reply_emit [.entered routine] (body.step ctx routine s s)

variable {ctx} {p : Parser} {s rest : Input} {v : Value} {reason : String} {fault : Fault}

theorem answerEach_andThen {α : Type} (p : Parser) (ps : List Parser) (s start start' : Input)
    (next : List Value → Input → Reply α) :
    ((answerEach ctx (p :: ps) s).andThen start next).Agree
      ((p.answer ctx s).andThen start' fun v rest =>
        (answerEach ctx ps rest).andThen rest fun vs rest => next (v :: vs) rest) := by
  rw [answerEach_cons]
  cases p.answer ctx s with
  | matched v rest =>
    simp only [Reply.andThen_matched]
    cases answerEach ctx ps rest with
    | matched vs t => exact .refl _
    | failed reason t => exact .failed reason start rest
    | raised fault => exact .raised fault
  | failed reason rest => exact .failed reason start start'
  | raised fault => exact .raised fault

theorem answers_of_matched (h : p.answer ctx s = .matched v rest) (lt : rest.length < s.length) :
    p.answers ctx s = (p.answers ctx rest).map (v :: ·) :=
  Step.reply_many_of_matched h lt

theorem answers_of_failed (h : p.answer ctx s = .failed reason rest) :
    p.answers ctx s = .matched [] s :=
  Step.reply_many_of_failed h

theorem answers_of_raised (h : p.answer ctx s = .raised fault) :
    p.answers ctx s = .raised fault :=
  Step.reply_many_of_raised h

theorem answers_of_stuck (h : p.answer ctx s = .matched v rest) (le : s.length ≤ rest.length) :
    p.answers ctx s = .raised (.emptyRepeat p.name) :=
  Step.reply_many_of_stuck h le

theorem answers_forall {P : Value → Prop} (h : ∀ s v rest, p.answer ctx s = .matched v rest → P v)
    {vs : List Value} (hs : p.answers ctx s = .matched vs rest) : ∀ v ∈ vs, P v := by
  induction hn : s.length using Nat.strongRecOn generalizing s vs with
  | _ n ih =>
    cases hp : p.answer ctx s with
    | raised _ => rw [answers_of_raised hp] at hs; cases hs
    | failed _ _ =>
      rw [answers_of_failed hp] at hs
      cases hs
      exact fun v hv => absurd hv List.not_mem_nil
    | matched u t =>
      cases Nat.lt_or_ge t.length s.length with
      | inl lt =>
        rw [answers_of_matched hp lt] at hs
        cases ht : p.answers ctx t with
        | raised _ => rw [ht] at hs; cases hs
        | failed _ _ => rw [ht] at hs; cases hs
        | matched us _ =>
          rw [ht] at hs
          cases hs
          rw [List.forall_mem_cons]
          exact ⟨h s u t hp, ih t.length (hn ▸ lt) ht rfl⟩
      | inr le =>
        rw [answers_of_stuck hp le] at hs
        cases hs

end Parser

namespace Script

variable (ctx : Context) (routine : Routine) (start : Input)

@[simp] theorem answer_done (p : Parser) (s : Input) :
    (done p).answer ctx routine start s = p.answer ctx s :=
  Run.reply_emit [.left routine] (p.step ctx s)

@[simp] theorem answer_await (p : Parser) (next : Value → Script) (s : Input) :
    (await p next).answer ctx routine start s =
      (p.answer ctx s).andThen start fun v rest => (next v).answer ctx routine start rest := by
  show (Step.await routine start (p.step ctx)
    (fun v => (next v).step ctx routine start) s).reply = _
  rw [Step.await, Parser.answer]
  cases (p.step ctx s).reply <;> rfl

@[simp] theorem answer_raise (fault : Fault) (s : Input) :
    (raise fault).answer ctx routine start s = .raised fault := rfl

end Script

end ParserKit

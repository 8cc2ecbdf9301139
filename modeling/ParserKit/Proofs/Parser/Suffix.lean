import ParserKit.Proofs.Parser.Lexical
import ParserKit.Proofs.Parser.Nesting

namespace ParserKit

def Reply.Leaves {α : Type} (s : Input) : Reply α → Prop
  | matched _ rest => rest <:+ s
  | failed _ _ => True
  | raised _ => True

namespace Reply.Leaves

variable {α β : Type} {s start : Input} {r r' : Reply α}

theorem andThen {next : α → Input → Reply β} (h : r.Leaves s)
    (hn : ∀ a rest, (next a rest).Leaves rest) : (r.andThen start next).Leaves s := by
  cases r with
  | matched a rest =>
    have hrest := hn a rest
    rw [andThen_matched]
    cases hr : next a rest with
    | matched b t =>
      rw [hr] at hrest
      exact List.IsSuffix.trans hrest h
    | failed _ _ => trivial
    | raised _ => trivial
  | failed _ _ => trivial
  | raised _ => trivial

theorem orElse (h : r.Leaves s) (h' : r'.Leaves s) : (r.orElse r').Leaves s := by
  cases r with
  | matched a rest => exact h
  | failed _ _ => exact h'
  | raised _ => trivial

theorem map (h : r.Leaves s) (f : α → β) : (r.map f).Leaves s := by
  cases r with
  | matched a rest => exact h
  | failed _ _ => trivial
  | raised _ => trivial

theorem ofOutcome (outcome : Except Fault Value) (s : Input) :
    (Reply.ofOutcome outcome s).Leaves s := by
  cases outcome with
  | error _ => trivial
  | ok v => cases v <;> first | trivial | exact List.suffix_refl s

end Reply.Leaves

/-- A parser which may be run in the course of a script. -/
inductive Script.Uses : Script → Parser → Prop
  | done {p} : Uses (.done p) p
  | here {p next} : Uses (.await p next) p
  | later {p next v q} : Uses (next v) q → Uses (.await p next) q

namespace Parser

/-- Parsers which are put together from those of the library and from functions that leave suffixes
themselves. -/
inductive Built : Parser → Prop
  | succeed (v : Value) : Built (succeed v)
  | success {limit : DigitLimit} {v : Value} {p : Parser} : success limit v = .ok p → Built p
  | fail (reason : String) : Built (fail reason)
  | endOfInput : Built endOfInput
  | satisfy (test : Char → Except Fault Bool) (name : String) : Built (satisfyOrFault test name)
  | char (c : Char) : Built (char c)
  | literal (t : String) : Built (literal t)
  | take {limit : DigitLimit} {n : Int} {p : Parser} : take limit n = .ok p → Built p
  | leaf (name : String) {f : Input → Except Fault (Value × Input)} :
      (∀ s v rest, f s = .ok (v, rest) → v.isFailure = false → rest <:+ s) → Built (leaf name f)
  | raise (fault : Fault) : Built (raise fault)
  | rule (key : Rule) (name : String) : Built (rule key name)
  | named {p : Parser} (name : String) : Built p → Built (p.named name)
  | tryMap {p : Parser} (f : Value → Except Fault Value) : Built p → Built (p.tryMap f)
  | map {p : Parser} (f : Value → Value) : Built p → Built (p.map f)
  | concat {p : Parser} : Built p → Built p.concat
  | bind {p : Parser} {next : Value → Parser} :
      Built p → (∀ v, Built (next v)) → Built (p.bind next)
  | script (routine : Routine) {body : Script} :
      (∀ p, body.Uses p → Built p) → Built (script routine body)
  | orElse {p q : Parser} : Built p → Built q → Built (p.orElse q)
  | first {ps : List Parser} : (∀ p ∈ ps, Built p) → Built (first ps)
  | optional {p : Parser} : Built p → Built (optional p)
  | absent {p : Parser} : Built p → Built p.absent
  | all {ps : List Parser} : (∀ p ∈ ps, Built p) → Built (all ps)
  | pair {p q : Parser} : Built p → Built q → Built (pair p q)
  | triple {p q r : Parser} : Built p → Built q → Built r → Built (triple p q r)
  | quadruple {p q r t : Parser} :
      Built p → Built q → Built r → Built t → Built (quadruple p q r t)
  | skipThen {p q : Parser} : Built p → Built q → Built (p.skipThen q)
  | thenSkip {p q : Parser} : Built p → Built q → Built (p.thenSkip q)
  | between {p q r : Parser} : Built p → Built q → Built r → Built (between p q r)
  | many {p : Parser} : Built p → Built p.many
  | many1 {p : Parser} : Built p → Built p.many1
  | sepBy {p q : Parser} : Built p → Built q → Built (sepBy p q)
  | sepBy1 {p q : Parser} : Built p → Built q → Built (sepBy1 p q)

def Trims (ctx : Context) (p : Parser) : Prop := ∀ s, (p.answer ctx s).Leaves s

namespace Trims

variable {ctx : Context} {p q r : Parser}

theorem of_leaf {name : String} {f : Input → Except Fault (Value × Input)}
    (h : ∀ s v rest, f s = .ok (v, rest) → v.isFailure = false → rest <:+ s) :
    Trims ctx (leaf name f) := by
  intro s
  rw [answer_leaf]
  cases hf : f s with
  | error _ => trivial
  | ok x =>
    obtain ⟨v, rest⟩ := x
    cases hv : v.isFailure with
    | false =>
      dsimp only
      rw [Reply.ofOutcome_ok hv]
      exact h s v rest hf hv
    | true => cases v <;> trivial

theorem of_unchanged {name : String} {f : Input → Except Fault (Value × Input)}
    (h : ∀ s v rest, f s = .ok (v, rest) → rest = s) : Trims ctx (leaf name f) :=
  of_leaf fun s v rest hf _ => h s v rest hf ▸ List.suffix_refl s

theorem succeedAs (name : String) (v : Value) : Trims ctx (succeedAs name v) :=
  of_unchanged fun _ _ _ h => by cases h; rfl

theorem fail (reason : String) : Trims ctx (fail reason) :=
  of_unchanged fun _ _ _ h => by cases h; rfl

theorem endOfInput : Trims ctx endOfInput :=
  of_unchanged fun _ _ _ h => by cases h; rfl

theorem satisfy (test : Char → Except Fault Bool) (name : String) :
    Trims ctx (satisfyOrFault test name) := by
  refine of_leaf fun s v rest h _ => ?_
  cases s with
  | nil =>
    cases h
    exact List.suffix_refl []
  | cons c s =>
    rw [satisfyStep] at h
    cases hc : test c with
    | error _ => rw [hc] at h; cases h
    | ok b =>
      rw [hc] at h
      cases b with
      | true =>
        cases h
        exact List.suffix_cons c _
      | false =>
        cases h
        exact List.suffix_refl _

theorem takeAs (name : String) (n : Int) : Trims ctx (takeAs name n) := by
  refine of_leaf fun s v rest h _ => ?_
  split at h
  · cases h
    exact List.drop_suffix _ s
  · cases h
    exact List.suffix_refl _

theorem tryMap (hp : Trims ctx p) (f : Value → Except Fault Value) : Trims ctx (p.tryMap f) := by
  intro s
  rw [answer_tryMap]
  exact (hp s).andThen fun v rest => .ofOutcome (f v) rest

theorem bind {next : Value → Parser} (hp : Trims ctx p) (hn : ∀ v, Trims ctx (next v)) :
    Trims ctx (p.bind next) := by
  intro s
  rw [answer_bind]
  exact (hp s).andThen hn

theorem named (hp : Trims ctx p) (name : String) : Trims ctx (p.named name) := by
  intro s
  rw [answer_named]
  exact hp s

theorem orElse (hp : Trims ctx p) (hq : Trims ctx q) : Trims ctx (p.orElse q) := by
  intro s
  rw [answer_orElse]
  exact (hp s).orElse (hq s)

theorem first {ps : List Parser} (h : ∀ p ∈ ps, Trims ctx p) : Trims ctx (first ps) := by
  intro s
  induction ps with
  | nil =>
    rw [answer_first_nil]
    trivial
  | cons p ps ih =>
    rw [List.forall_mem_cons] at h
    rw [answer_first_cons]
    exact (h.1 s).orElse (ih h.2)

theorem absent (p : Parser) : Trims ctx p.absent := by
  intro s
  rw [answer_absent]
  cases p.answer ctx s with
  | matched _ _ => trivial
  | failed _ _ => exact List.suffix_refl s
  | raised _ => trivial

theorem answerEach {ps : List Parser} (h : ∀ p ∈ ps, Trims ctx p) (s : Input) :
    (Parser.answerEach ctx ps s).Leaves s := by
  induction ps generalizing s with
  | nil => exact List.suffix_refl s
  | cons p ps ih =>
    rw [List.forall_mem_cons] at h
    rw [answerEach_cons]
    refine (h.1 s).andThen fun v rest => (ih h.2 rest).andThen fun vs t => ?_
    exact List.suffix_refl t

theorem all {ps : List Parser} (h : ∀ p ∈ ps, Trims ctx p) : Trims ctx (all ps) := by
  intro s
  rw [answer_all]
  exact (answerEach h s).map _

theorem answers (hp : Trims ctx p) (s : Input) : (p.answers ctx s).Leaves s := by
  induction hn : s.length using Nat.strongRecOn generalizing s with
  | _ n ih =>
    cases h : p.answer ctx s with
    | raised _ =>
      rw [answers_of_raised h]
      trivial
    | failed _ _ =>
      rw [answers_of_failed h]
      exact List.suffix_refl s
    | matched v rest =>
      cases Nat.lt_or_ge rest.length s.length with
      | inl lt =>
        have hrest := hp s
        rw [h] at hrest
        have ih := (ih rest.length (hn ▸ lt) rest rfl).map (v :: ·)
        rw [answers_of_matched h lt]
        cases hr : (p.answers ctx rest).map (v :: ·) with
        | matched vs t =>
          rw [hr] at ih
          exact List.IsSuffix.trans ih hrest
        | failed _ _ => trivial
        | raised _ => trivial
      | inr le =>
        rw [answers_of_stuck h le]
        trivial

theorem many (hp : Trims ctx p) : Trims ctx p.many := by
  intro s
  rw [answer_many]
  exact (hp.answers s).map _

theorem pair (hp : Trims ctx p) (hq : Trims ctx q) : Trims ctx (pair p q) :=
  (hp.bind fun _ => hq.tryMap _).named _

theorem skipThen (hp : Trims ctx p) (hq : Trims ctx q) : Trims ctx (p.skipThen q) :=
  (hp.pair hq).tryMap _

theorem thenSkip (hp : Trims ctx p) (hq : Trims ctx q) : Trims ctx (p.thenSkip q) :=
  (hp.pair hq).tryMap _

theorem sepBy1 (hp : Trims ctx p) (hq : Trims ctx q) : Trims ctx (sepBy1 p q) :=
  (hq.pair (hp.skipThen hq).many).tryMap _

end Trims

end Parser

theorem Script.leaves {ctx : Context} {routine : Routine} {start : Input} : (body : Script) →
    (∀ p, body.Uses p → Parser.Trims ctx p) → ∀ s, (body.answer ctx routine start s).Leaves s
  | .done p, h, s => by
    rw [answer_done]
    exact h p .done s
  | .await p next, h, s => by
    rw [answer_await]
    exact (h p .here s).andThen fun v rest =>
      Script.leaves (next v) (fun q hq => h q (.later hq)) rest
  | .raise _, _, _ => trivial

namespace Parser

variable {ctx : Context} {rules : Rules} {p : Parser}

theorem Built.trims (enter : ∀ key s, (ctx.enter key s).reply.Leaves s) (hp : Built p) :
    Trims ctx p := by
  induction hp with
  | succeed v => exact .succeedAs "pure" v
  | success h =>
    obtain ⟨shown, rfl⟩ := Value.exists_of_map_display h
    exact .succeedAs _ _
  | fail reason => exact .fail reason
  | endOfInput => exact .endOfInput
  | satisfy test name => exact .satisfy test name
  | char c => exact .satisfy _ _
  | literal t =>
    refine ((Trims.all fun p hp => ?_).tryMap _).named _
    obtain ⟨c, _, rfl⟩ := List.mem_map.1 hp
    exact .satisfy _ _
  | take h =>
    obtain ⟨shown, rfl⟩ := Value.exists_of_map_display h
    exact .takeAs _ _
  | leaf name h => exact .of_leaf h
  | raise fault => exact fun _ => trivial
  | rule key name =>
    intro s
    rw [answer_rule]
    exact enter key s
  | named name _ ih => exact ih.named name
  | tryMap f _ ih => exact ih.tryMap f
  | map f _ ih => exact ih.tryMap _
  | concat _ ih => exact ih.tryMap _
  | bind _ _ ihp ihn => exact ihp.bind ihn
  | script routine _ ih =>
    intro s
    rw [answer_script]
    exact Script.leaves _ ih s
  | orElse _ _ ihp ihq => exact ihp.orElse ihq
  | first _ ih => exact .first ih
  | optional _ ih => exact (ih.orElse (.succeedAs "pure" _)).named _
  | absent _ _ => exact .absent _
  | all _ ih => exact .all ih
  | pair _ _ ihp ihq => exact ihp.pair ihq
  | triple _ _ _ ihp ihq ihr =>
    exact (ihp.bind fun _ => ihq.bind fun _ => ihr.tryMap _).named _
  | quadruple _ _ _ _ ihp ihq ihr iht =>
    exact (ihp.bind fun _ => ihq.bind fun _ => ihr.bind fun _ => iht.tryMap _).named _
  | skipThen _ _ ihp ihq => exact ihp.skipThen ihq
  | thenSkip _ _ ihp ihq => exact ihp.thenSkip ihq
  | between _ _ _ ihp ihq ihr => exact ihp.skipThen (ihq.thenSkip ihr)
  | many _ ih => exact ih.many
  | many1 _ ih =>
    refine (ih.many.bind fun v => ?_).named _
    split
    · exact (Trims.fail _).named _
    · exact .succeedAs "pure" _
  | sepBy _ _ ihp ihq => exact (ihp.sepBy1 ihq).orElse ((Trims.succeedAs "pure" _).tryMap _)
  | sepBy1 _ _ ihp ihq => exact ihp.sepBy1 ihq

theorem leaves_enter (hr : ∀ key, Built (rules key)) (debug : Bool) (budget : Nat) (key : Rule)
    (s : Input) : ((context rules debug budget).enter key s).reply.Leaves s := by
  induction budget generalizing key s with
  | zero => trivial
  | succ budget ih =>
    rw [enter_context_succ]
    exact (hr key).trims ih s

/-- Whatever a parser leaves after a match is a suffix of its input. -/
theorem rest_suffix (hr : ∀ key, Built (rules key)) (hp : Built p) {debug : Bool} {budget : Nat}
    {s rest : Input} {v : Value} (h : (p.run rules debug budget s).reply = .matched v rest) :
    rest <:+ s := by
  have hs := hp.trims (leaves_enter hr debug budget) s
  rwa [← reply_run, h] at hs

theorem rest_suffix_of_rule : ['c'] <:+ ['a', 'b', 'c'] := by
  have hr : ∀ key, Built ((fun _ => literal "ab" : Rules) key) := fun _ => .literal "ab"
  have h : ((rule .json "ab").run (fun _ => literal "ab") false 1 ['a', 'b', 'c']).reply =
      .matched (.text "ab") ['c'] := by
    rw [reply_run, answer_rule, enter_context_succ]
    exact answer_literal_append _ "ab" ['c']
  exact rest_suffix hr (.rule .json "ab") h

end Parser

end ParserKit

import ParserKit.Proofs.Parser.Answer
import ParserKit.Proofs.Run.Agreement

namespace ParserKit

namespace Value

def asTuple : Value → Value
  | list vs => tuple vs
  | v => v

def append : Value → Value → Value
  | list vs, list ws => list (vs ++ ws)
  | v, _ => v

end Value

namespace Parser

/-- Two parsers with the same answers, whatever they leave after a failure. -/
def Equivalent (ctx : Context) (p q : Parser) : Prop :=
  ∀ s, (p.answer ctx s).Agree (q.answer ctx s)

/-- Parsers bound to each other from the right, and the last one to what is made of all values. -/
def inOrder : List Parser → (List Value → Parser) → Parser
  | [], next => next []
  | p :: ps, next => p.bind fun v => inOrder ps fun vs => next (v :: vs)

variable {ctx : Context}

namespace Equivalent

variable {p q r : Parser}

theorem refl (p : Parser) : Equivalent ctx p p := fun _ => .refl _

theorem symm (h : Equivalent ctx p q) : Equivalent ctx q p := fun s => (h s).symm

theorem trans (h : Equivalent ctx p q) (h' : Equivalent ctx q r) : Equivalent ctx p r :=
  fun s => (h s).trans (h' s)

theorem of_eq (h : ∀ s, p.answer ctx s = q.answer ctx s) : Equivalent ctx p q := fun s => by
  rw [h]
  exact .refl _

theorem named (name : String) (p : Parser) : Equivalent ctx (p.named name) p :=
  of_eq (answer_named ctx name p)

theorem bind (h : Equivalent ctx p q) {next next' : Value → Parser}
    (hn : ∀ v, Equivalent ctx (next v) (next' v)) :
    Equivalent ctx (p.bind next) (q.bind next') := fun s => by
  rw [answer_bind, answer_bind]
  exact (h s).andThen (fun v rest => hn v rest) s s

theorem inOrder (ps : List Parser) {next next' : List Value → Parser}
    (hn : ∀ vs, Equivalent ctx (next vs) (next' vs)) :
    Equivalent ctx (inOrder ps next) (inOrder ps next') := by
  induction ps generalizing next next' with
  | nil => exact hn []
  | cons p ps ih => exact (refl p).bind fun v => ih fun vs => hn (v :: vs)

end Equivalent

theorem answer_succeed_eq (ctx : Context) (v : Value) (s : Input) :
    (succeed v).answer ctx s = .ofOutcome (.ok v) s := answer_leaf ..

theorem map_equivalent (p : Parser) (f : Value → Value) :
    Equivalent ctx (p.map f) (p.bind fun v => succeed (f v)) := .of_eq fun s => by
  rw [answer_map, answer_bind]
  simp only [answer_succeed_eq]

theorem bind_assoc (p : Parser) (f g : Value → Parser) :
    Equivalent ctx ((p.bind f).bind g) (p.bind fun v => (f v).bind g) := fun s => by
  simp only [answer_bind]
  exact .assoc ..

theorem succeed_bind {v : Value} (hv : v.isFailure = false) (next : Value → Parser) :
    Equivalent ctx ((succeed v).bind next) (next v) := .of_eq fun s => by
  rw [answer_bind, answer_succeed ctx hv, Reply.andThen_matched]

theorem succeed_bind_succeed (v : Value) :
    Equivalent ctx ((succeed v).bind succeed) (succeed v) := by
  cases v with
  | failure reason =>
    intro s
    rw [answer_bind, answer_succeed_eq]
    exact .failed reason s s
  | _ => exact succeed_bind rfl succeed

theorem inOrder_bind (ps : List Parser) (next : List Value → Parser) (g : Value → Parser) :
    Equivalent ctx ((inOrder ps next).bind g) (inOrder ps fun vs => (next vs).bind g) := by
  induction ps generalizing next with
  | nil => exact .refl _
  | cons p ps ih => exact (bind_assoc p _ g).trans ((Equivalent.refl p).bind fun v => ih _)

theorem inOrder_equivalent (ps : List Parser) (next : Value → Parser) :
    Equivalent ctx (inOrder ps fun vs => next (.list vs)) ((all ps).bind next) := by
  intro s
  rw [answer_bind, answer_all, Reply.map_andThen]
  induction ps generalizing next s with
  | nil => exact .refl _
  | cons p ps ih =>
    rw [inOrder, answer_bind]
    refine .trans ?_ (answerEach_andThen p ps s s s _).symm
    exact (Reply.Agree.refl _).andThen (fun v rest => ih (fun w => next (.cons v w)) rest) s s

theorem inOrder_succeed (ps : List Parser) (f : Value → Value) :
    Equivalent ctx (inOrder ps fun vs => succeed (f (.list vs))) ((all ps).map f) :=
  (inOrder_equivalent ps fun v => succeed (f v)).trans (map_equivalent (all ps) f).symm

theorem all_equivalent (ps : List Parser) :
    Equivalent ctx (all ps) (inOrder ps fun vs => succeed (.list vs)) := by
  refine .trans (fun s => ?_) (inOrder_succeed ps id).symm
  rw [answer_map, answer_all, Reply.map_andThen]
  cases answerEach ctx ps s with
  | failed reason rest => exact .failed reason rest s
  | _ => exact .refl _

theorem all_append (ps qs : List Parser) :
    Equivalent ctx (all (ps ++ qs))
      ((all ps).bind fun vs => (all qs).map fun ws => vs.append ws) := by
  have hinOrder (next : List Value → Parser) : inOrder (ps ++ qs) next =
      inOrder ps fun vs => inOrder qs fun ws => next (vs ++ ws) := by
    induction ps generalizing next with
    | nil => rfl
    | cons p ps ih => exact congrArg p.bind (funext fun v => ih _)
  have hqs (vs : List Value) : Equivalent ctx
      (inOrder qs fun ws => succeed (.list (vs ++ ws))) ((all qs).map (Value.list vs).append) :=
    inOrder_succeed qs (Value.list vs).append
  refine (all_equivalent _).trans ?_
  rw [hinOrder]
  exact (Equivalent.inOrder ps hqs).trans (inOrder_equivalent ps fun v => (all qs).map v.append)

theorem pair_equivalent (p q : Parser) :
    Equivalent ctx (pair p q) (inOrder [p, q] fun vs => succeed (.tuple vs)) :=
  (Equivalent.named _ _).trans <| (Equivalent.refl p).bind fun a =>
    map_equivalent q fun b => .tuple [a, b]

theorem triple_equivalent (p q r : Parser) :
    Equivalent ctx (triple p q r) (inOrder [p, q, r] fun vs => succeed (.tuple vs)) :=
  (Equivalent.named _ _).trans <| (Equivalent.refl p).bind fun a => (Equivalent.refl q).bind fun b =>
    map_equivalent r fun c => .tuple [a, b, c]

theorem quadruple_equivalent (p q r s : Parser) :
    Equivalent ctx (quadruple p q r s) (inOrder [p, q, r, s] fun vs => succeed (.tuple vs)) :=
  (Equivalent.named _ _).trans <| (Equivalent.refl p).bind fun a => (Equivalent.refl q).bind fun b =>
    (Equivalent.refl r).bind fun c => map_equivalent s fun d => .tuple [a, b, c, d]

theorem pair_item (p q : Parser) (k : Nat) :
    Equivalent ctx ((pair p q).map (·.item k))
      (inOrder [p, q] fun vs => succeed ((Value.list vs).item k)) := by
  refine (map_equivalent _ _).trans (((pair_equivalent p q).bind fun _ => .refl _).trans ?_)
  exact (inOrder_bind [p, q] _ _).trans (.inOrder _ fun vs => succeed_bind rfl _)

theorem between_equivalent (start p stop : Parser) :
    Equivalent ctx (between start p stop)
      (inOrder [start, p, stop] fun vs => succeed ((Value.list vs).item 1)) := by
  refine (pair_item start (p.thenSkip stop) 1).trans ((Equivalent.refl start).bind fun _ => ?_)
  refine ((pair_item p stop 0).bind fun _ => .refl _).trans ((inOrder_bind [p, stop] _ _).trans ?_)
  exact .inOrder [p, stop] fun vs => succeed_bind_succeed _

/-- Parsers in a list answer as the same parsers bound to each other, and two lists one after the
other as one.  Tuples are such lists, and so are sequences of which one value is kept.  Binds may be
bracketed in both ways. -/
theorem sequences_are_binds (ctx : Context) :
    (∀ ps, Equivalent ctx (all ps) (inOrder ps fun vs => succeed (.list vs))) ∧
    (∀ ps qs, Equivalent ctx (all (ps ++ qs))
      ((all ps).bind fun vs => (all qs).map fun ws => vs.append ws)) ∧
    (∀ p q, Equivalent ctx (pair p q) ((all [p, q]).map Value.asTuple)) ∧
    (∀ p q r, Equivalent ctx (triple p q r) ((all [p, q, r]).map Value.asTuple)) ∧
    (∀ p q r s, Equivalent ctx (quadruple p q r s) ((all [p, q, r, s]).map Value.asTuple)) ∧
    (∀ p q, Equivalent ctx (p.skipThen q) ((all [p, q]).map (·.item 1))) ∧
    (∀ p q, Equivalent ctx (p.thenSkip q) ((all [p, q]).map (·.item 0))) ∧
    (∀ start p stop, Equivalent ctx (between start p stop)
      ((all [start, p, stop]).map (·.item 1))) ∧
    ∀ p : Parser, ∀ f g, Equivalent ctx ((p.bind f).bind g) (p.bind fun v => (f v).bind g) := by
  have htuple (ps : List Parser) :
      Equivalent ctx (inOrder ps fun vs => succeed (.tuple vs)) ((all ps).map Value.asTuple) :=
    inOrder_succeed ps Value.asTuple
  have hitem (ps : List Parser) (k : Nat) :
      Equivalent ctx (inOrder ps fun vs => succeed ((Value.list vs).item k))
        ((all ps).map (·.item k)) := inOrder_succeed ps (·.item k)
  exact ⟨all_equivalent, all_append, fun p q => (pair_equivalent p q).trans (htuple _),
    fun p q r => (triple_equivalent p q r).trans (htuple _),
    fun p q r s => (quadruple_equivalent p q r s).trans (htuple _),
    fun p q => (pair_item p q 1).trans (hitem _ 1), fun p q => (pair_item p q 0).trans (hitem _ 0),
    fun start p stop => (between_equivalent start p stop).trans (hitem _ 1), bind_assoc⟩

end Parser

end ParserKit

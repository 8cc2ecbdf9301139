import ParserKit.Proofs.Run.Likeness

/-! Parsers of one shape.  Their names may stand for each other, and their leaves are the same
functions, except for what these leave of the input when they fail.  Runs of such parsers have every
relation between runs which is kept by all the ways of putting runs together. -/

namespace ParserKit

/-- The same result, or failures for the same reason with different rests. -/
inductive LeafAlike : Except Fault (Value × Input) → Except Fault (Value × Input) → Prop
  | same (result : Except Fault (Value × Input)) : LeafAlike result result
  | failed (reason : String) (rest rest' : Input) :
      LeafAlike (.ok (.failure reason, rest)) (.ok (.failure reason, rest'))

mutual
inductive Parser.Alike (N : Renaming) : Parser → Parser → Prop
  | node {name name' : String} {form form' : Form} :
      N name name' → Form.Alike N form form' →
        Parser.Alike N (.node name form) (.node name' form')
  | raise (fault : Fault) : Parser.Alike N (.raise fault) (.raise fault)

inductive Form.Alike (N : Renaming) : Form → Form → Prop
  | leaf {f f' : Input → Except Fault (Value × Input)} :
      (∀ s, LeafAlike (f s) (f' s)) → Form.Alike N (.leaf f) (.leaf f')
  | apply {p p' : Parser} (f : Value → Except Fault Value) :
      Parser.Alike N p p' → Form.Alike N (.apply p f) (.apply p' f)
  | bind {p p' : Parser} {next next' : Value → Parser} :
      Parser.Alike N p p' → (∀ v, Parser.Alike N (next v) (next' v)) →
        Form.Alike N (.bind p next) (.bind p' next')
  | script (routine : Routine) {body body' : Script} :
      Script.Alike N body body' → Form.Alike N (.script routine body) (.script routine body')
  | orElse {p p' q q' : Parser} :
      Parser.Alike N p p' → Parser.Alike N q q' → Form.Alike N (.orElse p q) (.orElse p' q')
  | first {ps ps' : List Parser} :
      Parser.AllAlike N ps ps' → Form.Alike N (.first ps) (.first ps')
  | each {ps ps' : List Parser} :
      Parser.AllAlike N ps ps' → Form.Alike N (.each ps) (.each ps')
  | many {p p' : Parser} : Parser.Alike N p p' → Form.Alike N (.many p) (.many p')
  | absent {p p' : Parser} : Parser.Alike N p p' → Form.Alike N (.absent p) (.absent p')
  | rule (key : Rule) : Form.Alike N (.rule key) (.rule key)

inductive Script.Alike (N : Renaming) : Script → Script → Prop
  | done {p p' : Parser} : Parser.Alike N p p' → Script.Alike N (.done p) (.done p')
  | await {p p' : Parser} {next next' : Value → Script} :
      Parser.Alike N p p' → (∀ v, Script.Alike N (next v) (next' v)) →
        Script.Alike N (.await p next) (.await p' next')
  | raise (fault : Fault) : Script.Alike N (.raise fault) (.raise fault)

inductive Parser.AllAlike (N : Renaming) : List Parser → List Parser → Prop
  | nil : Parser.AllAlike N [] []
  | cons {p p' : Parser} {ps ps' : List Parser} :
      Parser.Alike N p p' → Parser.AllAlike N ps ps' → Parser.AllAlike N (p :: ps) (p' :: ps')
end

section

variable {N : Renaming}

theorem Parser.Alike.name [Std.Refl N] {p p' : Parser} (h : p.Alike N p') : N p.name p'.name := by
  cases h with
  | node hname _ => exact hname
  | raise fault => exact Std.Refl.refl _

mutual
theorem Parser.Alike.refl [Std.Refl N] : (p : Parser) → p.Alike N p
  | .node name form => .node (Std.Refl.refl name) (Form.Alike.refl form)
  | .raise fault => .raise fault

theorem Form.Alike.refl [Std.Refl N] : (form : Form) → form.Alike N form
  | .leaf f => .leaf fun s => .same (f s)
  | .apply p f => .apply f (Parser.Alike.refl p)
  | .bind p next => .bind (Parser.Alike.refl p) fun v => Parser.Alike.refl (next v)
  | .script routine body => .script routine (Script.Alike.refl body)
  | .orElse p q => .orElse (Parser.Alike.refl p) (Parser.Alike.refl q)
  | .first ps => .first (Parser.AllAlike.refl ps)
  | .each ps => .each (Parser.AllAlike.refl ps)
  | .many p => .many (Parser.Alike.refl p)
  | .absent p => .absent (Parser.Alike.refl p)
  | .rule key => .rule key

theorem Script.Alike.refl [Std.Refl N] : (body : Script) → body.Alike N body
  | .done p => .done (Parser.Alike.refl p)
  | .await p next => .await (Parser.Alike.refl p) fun v => Script.Alike.refl (next v)
  | .raise fault => .raise fault

theorem Parser.AllAlike.refl [Std.Refl N] : (ps : List Parser) → Parser.AllAlike N ps ps
  | [] => .nil
  | p :: ps => .cons (Parser.Alike.refl p) (Parser.AllAlike.refl ps)
end

end

theorem Likeness.leaf {N : Renaming} {debug debug' : Bool} (L : Likeness N debug debug')
    {f f' : Input → Except Fault (Value × Input)} (h : ∀ s, LeafAlike (f s) (f' s)) :
    L.Steps (Step.leaf f) (Step.leaf f') := by
  intro s
  rw [Step.leaf, Step.leaf]
  have hs := h s
  generalize f s = result, f' s = result' at hs
  cases hs with
  | same =>
    cases result with
    | ok result => exact L.silent (.refl N _)
    | error fault => exact L.silent (.refl N _)
  | failed reason rest rest' => exact L.silent (.failed (.same reason) rest rest')

section

variable {N : Renaming} {debug debug' : Bool} {enter enter' : Rule → Step Value}

mutual
theorem Parser.Alike.steps [Std.Refl N] (L : Likeness N debug debug')
    (henter : ∀ key, L.Steps (enter key) (enter' key)) : {p p' : Parser} → p.Alike N p' →
      L.Steps (p.step ⟨debug, enter⟩) (p'.step ⟨debug', enter'⟩)
  | _, _, .node hname h => fun s => L.logged hname (Form.Alike.steps L henter h s)
  | _, _, .raise fault => Likeness.Steps.raised fault

theorem Form.Alike.steps [Std.Refl N] (L : Likeness N debug debug')
    (henter : ∀ key, L.Steps (enter key) (enter' key)) : {form form' : Form} → form.Alike N form' →
      L.Steps (form.step ⟨debug, enter⟩) (form'.step ⟨debug', enter'⟩)
  | _, _, .leaf h => L.leaf h
  | _, _, .apply f h => (Parser.Alike.steps L henter h).apply f
  | _, _, .bind h hn =>
    (Parser.Alike.steps L henter h).bind fun v => Parser.Alike.steps L henter (hn v)
  | _, _, .script routine h => fun s => L.entered (Script.Alike.within L henter routine s h s)
  | _, _, .orElse hp hq => (Parser.Alike.steps L henter hp).orElse (Parser.Alike.steps L henter hq)
  | _, _, .first h => .first (Parser.AllAlike.steps L henter h)
  | _, _, .each h => (Likeness.Steps.each (Parser.AllAlike.steps L henter h)).map Value.list
  | _, _, .many h => ((Parser.Alike.steps L henter h).many h.name).map Value.list
  | _, _, .absent h => (Parser.Alike.steps L henter h).absent h.name
  | _, _, .rule key => henter key

theorem Script.Alike.within [Std.Refl N] (L : Likeness N debug debug')
    (henter : ∀ key, L.Steps (enter key) (enter' key)) (routine : Routine) (start : Input) :
    {body body' : Script} → body.Alike N body' → ∀ s,
      L.Within routine (body.step ⟨debug, enter⟩ routine start s)
        (body'.step ⟨debug', enter'⟩ routine start s)
  | _, _, .done h, s => L.left (Parser.Alike.steps L henter h s)
  | _, _, .await h hn, s =>
    (Parser.Alike.steps L henter h).await
      (fun v => Script.Alike.within L henter routine start (hn v)) start s
  | _, _, .raise fault, s => L.left (Likeness.Steps.raised fault s)

theorem Parser.AllAlike.steps [Std.Refl N] (L : Likeness N debug debug')
    (henter : ∀ key, L.Steps (enter key) (enter' key)) :
    {ps ps' : List Parser} → Parser.AllAlike N ps ps' →
      List.Forall₂ L.Steps (Parser.steps ⟨debug, enter⟩ ps) (Parser.steps ⟨debug', enter'⟩ ps')
  | _, _, .nil => .nil
  | _, _, .cons h hs => .cons (Parser.Alike.steps L henter h) (Parser.AllAlike.steps L henter hs)
end

end

theorem Parser.Alike.run {N : Renaming} [Std.Refl N] {debug debug' : Bool}
    (L : Likeness N debug debug') {rules rules' : Rules}
    (hr : ∀ key, (rules key).Alike N (rules' key)) {p p' : Parser} (hp : p.Alike N p')
    (budget : Nat) : L.Steps (p.run rules debug budget) (p'.run rules' debug' budget) := by
  induction budget generalizing p p' with
  | zero => exact hp.steps L fun _ => .raised .tooDeep
  | succ budget ih => exact hp.steps L fun key => ih (hr key)

end ParserKit

import ParserKit.Proofs.Parser.Sameness
import ParserKit.Proofs.Script.Life

namespace ParserKit

def anyName : Renaming := fun _ _ => True

instance : Std.Refl anyName := ⟨fun _ => trivial⟩

namespace Parser

theorem Alike.named {p p' : Parser} (h : p.Alike anyName p') (name name' : String) :
    (p.named name).Alike anyName (p'.named name') := by
  cases h with
  | node _ h => exact .node trivial h
  | raise fault => exact .raise fault

theorem leaf_alike (f : Input → Except Fault (Value × Input)) (name name' : String) :
    (leaf name f).Alike anyName (leaf name' f) :=
  .node trivial (.leaf fun s => .same (f s))

theorem satisfy_alike (test : Char → Bool) (name name' : String) :
    (satisfy test name).Alike anyName (satisfy test name') :=
  leaf_alike _ name name'

theorem rule_alike (key : Rule) (name name' : String) :
    (rule key name).Alike anyName (rule key name') :=
  .node trivial (.rule key)

/-- Names do not change what a run answers, except where a reason or a fault tells one; the lives of
the scripts, and so the trace, are the same. -/
theorem names_unobserved {N : Renaming} [Std.Refl N] {rules rules' : Rules}
    (hr : ∀ key, (rules key).Alike N (rules' key)) {p p' : Parser} (hp : p.Alike N p')
    (debug debug' : Bool) (budget : Nat) (s : Input) :
    let run := p.run rules debug budget s
    let run' := p'.run rules' debug' budget s
    run.reply.AgreeUpTo N run'.reply ∧
      ∀ keep : Routine → Bool, Event.lives keep run.events = Event.lives keep run'.events := by
  intro run run'
  have same (keep : Routine → Bool) :
      run.SameUpTo N (fun e => e.routine?.any keep) run' := by
    have hlog : LogsComparable N (fun e => e.routine?.any keep) debug debug' :=
      .inr fun e he => by simp [he]
    exact hp.run (.same hlog) hr budget s
  exact ⟨(same fun _ => true).reply, fun keep => (same keep).events⟩

theorem names_unobserved_absent :
    let rules (name : String) : Rules := fun _ => (satisfy (· == 'a') name).named name
    let p (name : String) := script ⟨"s", true⟩
      (.await (satisfy (· == 'a') name) fun _ => .done (rule .json name).absent)
    let run (name : String) := (p name).run (rules name) false 1 ['a', 'a']
    (∀ key, (rules "x" key).Alike anyName (rules "y" key)) ∧ (p "x").Alike anyName (p "y") ∧
      (run "x").reply = .failed "unexpected x" ['a'] ∧
      (run "y").reply = .failed "unexpected y" ['a'] ∧
      (run "x").reply.AgreeUpTo anyName (run "y").reply ∧
      ∀ keep : Routine → Bool,
        Event.lives keep (run "x").events = Event.lives keep (run "y").events := by
  intro rules p run
  have hsatisfy := satisfy_alike (· == 'a') "x" "y"
  have hr : ∀ key, (rules "x" key).Alike anyName (rules "y" key) := fun _ => hsatisfy.named "x" "y"
  have hp : (p "x").Alike anyName (p "y") := by
    refine .node trivial (.script _ (.await hsatisfy fun _ => .done ?_))
    exact .node trivial (.absent (rule_alike .json "x" "y"))
  exact ⟨hr, hp, rfl, rfl, names_unobserved hr hp false false 1 ['a', 'a']⟩

end Parser

end ParserKit

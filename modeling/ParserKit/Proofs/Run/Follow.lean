import ParserKit.Proofs.Parser.Nesting

/-! Runs of composed steps, events included.  Every operation on steps runs a first part and goes on
as its answer tells, so what `Run.follow` preserves is preserved by all of them. -/

namespace ParserKit

universe u v

variable {α : Type u} {β : Type v}

namespace Run

def follow (r : Run α) (onMatch : α → Input → Run β) (onFail : String → Input → Run β) : Run β :=
  match r.reply with
  | .matched value rest => (onMatch value rest).emit r.events
  | .failed reason rest => (onFail reason rest).emit r.events
  | .raised fault => ⟨r.events, .raised fault⟩

theorem follow_congr {r : Run α} {f f' : α → Input → Run β}
    (h : ∀ value rest, r.reply = .matched value rest → f value rest = f' value rest)
    (g : String → Input → Run β) : r.follow f g = r.follow f' g := by
  rw [follow, follow]
  split
  · next value rest hr => rw [h value rest hr]
  · rfl
  · rfl

theorem emit_silent (es : List Event) (r : Reply α) : (silent r).emit es = ⟨es, r⟩ := by
  simp [emit, silent]

theorem map_eq_follow (f : α → β) (r : Run α) :
    r.map f = r.follow (fun value rest => silent (.matched (f value) rest))
      fun reason rest => silent (.failed reason rest) := by
  obtain ⟨events, _ | _ | _⟩ := r <;> simp [map, follow, emit_silent, Reply.map]

theorem andThen_eq_follow (r : Run α) (start : Input) (next : α → Input → Run β) :
    r.andThen start next = r.follow next fun reason _ => silent (.failed reason start) := by
  obtain ⟨events, _ | _ | _⟩ := r <;> simp [andThen, follow, emit_silent]

end Run

namespace Step

theorem bind_eq_follow (p : Step α) (next : α → Step β) (s : Input) :
    p.bind next s = (p s).follow next fun reason _ => .silent (.failed reason s) :=
  Run.andThen_eq_follow (p s) s next

theorem orElse_eq_follow (p q : Step α) (s : Input) :
    p.orElse q s =
      (p s).follow (fun value rest => .silent (.matched value rest)) fun _ _ => q s := by
  simp only [orElse, Run.follow]
  cases h : (p s).reply <;> simp [Run.emit_silent, ← h]

theorem round_eq_follow (name : String) (p : Step α) (next : Step (List α)) (s : Input) :
    round name p next s = (p s).follow
      (fun value rest =>
        if rest.length < s.length then (next rest).map (value :: ·)
        else .silent (.raised (.emptyRepeat name)))
      fun _ _ => .silent (.matched [] s) := by
  simp only [round, Run.follow]
  cases (p s).reply with
  | matched value rest => dsimp only; split <;> simp [Run.emit_silent]
  | failed reason rest => simp [Run.emit_silent]
  | raised fault => rfl

theorem absent_eq_follow (name : String) (p : Step Value) (s : Input) :
    absent name p s = (p s).follow (fun _ _ => .silent (.failed ("unexpected " ++ name) s))
      fun _ _ => .silent (.matched .nothing s) := by
  simp only [absent, Run.follow]
  cases (p s).reply <;> simp [Run.emit_silent]

theorem each_cons_eq_follow (p : Step α) (ps : List (Step α)) (s : Input) :
    each (p :: ps) s = (p s).follow
      (fun value rest => (each ps rest).follow
        (fun values rest => .silent (.matched (value :: values) rest))
        fun reason _ => .silent (.failed reason s))
      fun reason _ => .silent (.failed reason s) := by
  simp only [each, Run.andThen_eq_follow]

theorem await_eq_follow (routine : Routine) (start : Input) (p : Step Value)
    (next : Value → Step Value) (s : Input) :
    await routine start p next s = (p s).follow
      (fun value rest => (next value rest).emit [.received routine value])
      fun reason _ => ⟨[.left routine], .failed reason start⟩ := by
  simp only [await, Run.follow]
  cases (p s).reply <;> simp [Run.emit]

theorem logged_eq_follow (name : String) (p : Step Value) (s : Input) :
    logged true name p s = ((p s).follow
      (fun value rest => ⟨[.matched name value rest], .matched value rest⟩)
      fun reason rest => ⟨[.failed name reason], .failed reason rest⟩).emit [.tried name s] := by
  simp only [logged, if_true, Run.follow]
  cases (p s).reply <;> simp [Run.emit, closing]

end Step

namespace Parser

theorem run_eq_step (rules : Rules) (debug : Bool) (n : Nat) (p : Parser) :
    p.run rules debug n = p.step (context rules debug n) := by
  cases n <;> rfl

theorem context_eq (rules : Rules) (debug : Bool) (n : Nat) :
    context rules debug n = ⟨debug, (context rules debug n).enter⟩ := by
  cases n <;> rfl

end Parser

end ParserKit

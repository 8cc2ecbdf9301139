import Mathlib.Data.List.Forall2
import ParserKit.Proofs.Run.Agreement
import ParserKit.Proofs.Run.Follow

/-! Relations between two runs which are kept by all the ways in which runs are put together.  A
property of one run is such a relation as well, and does not look at the other run. -/

namespace ParserKit

/-- A relation with a clause for each way in which a run goes on.  What goes on after a failure gets
to know its reason, and nothing else of it. -/
structure Likeness (N : Renaming) (debug debug' : Bool) where
  Rel {α : Type} : Run α → Run α → Prop
  Within : Routine → Run Value → Run Value → Prop
  silent {α : Type} {r r' : Reply α} : r.AgreeUpTo N r' → Rel (.silent r) (.silent r')
  follow {α β : Type} {r r' : Run α} {f f' : α → Input → Run β} {g g' : String → Input → Run β} :
    Rel r r' → (∀ value rest, Rel (f value rest) (f' value rest)) →
      (∀ {reason reason'}, ReasonUpTo N reason reason' →
        ∀ rest rest', Rel (g reason rest) (g' reason' rest')) →
      Rel (r.follow f g) (r'.follow f' g')
  logged {name name' : String} {p p' : Step Value} {s : Input} :
    N name name' → Rel (p s) (p' s) →
      Rel (Step.logged debug name p s) (Step.logged debug' name' p' s)
  entered {routine : Routine} {r r' : Run Value} :
    Within routine r r' → Rel (r.emit [.entered routine]) (r'.emit [.entered routine])
  awaited {routine : Routine} {r r' : Run Value} {f f' : Value → Input → Run Value} :
    Rel r r' → (∀ value rest, Within routine (f value rest) (f' value rest)) → ∀ s,
      Within routine
        (r.follow (fun value rest => (f value rest).emit [.received routine value])
          fun reason _ => ⟨[.left routine], .failed reason s⟩)
        (r'.follow (fun value rest => (f' value rest).emit [.received routine value])
          fun reason _ => ⟨[.left routine], .failed reason s⟩)
  left {routine : Routine} {r r' : Run Value} :
    Rel r r' → Within routine (r.emit [.left routine]) (r'.emit [.left routine])

variable {N : Renaming} {debug debug' : Bool} {α β : Type}

def Likeness.Steps (L : Likeness N debug debug') (p p' : Step α) : Prop := ∀ s, L.Rel (p s) (p' s)

namespace Likeness.Steps

variable {L : Likeness N debug debug'}

theorem raised (fault : Fault) : L.Steps (Step.raised fault : Step α) (Step.raised fault) :=
  fun _ => L.silent (.raised (.same fault))

theorem map {p p' : Step α} (h : L.Steps p p') (f : α → β) : L.Steps (p.map f) (p'.map f) := by
  intro s
  rw [Step.map, Step.map, Run.map_eq_follow, Run.map_eq_follow]
  exact L.follow (h s) (fun value rest => L.silent (.matched _ rest))
    fun hreason rest rest' => L.silent (.failed hreason rest rest')

theorem bind {p p' : Step α} {next next' : α → Step β} (h : L.Steps p p')
    (hn : ∀ value, L.Steps (next value) (next' value)) :
    L.Steps (p.bind next) (p'.bind next') := by
  intro s
  rw [Step.bind_eq_follow, Step.bind_eq_follow]
  exact L.follow (h s) hn fun hreason _ _ => L.silent (.failed hreason s s)

theorem apply {p p' : Step Value} (h : L.Steps p p') (f : Value → Except Fault Value) :
    L.Steps (p.apply f) (p'.apply f) :=
  h.bind fun _ _ => L.silent (.refl N _)

theorem orElse {p p' q q' : Step α} (hp : L.Steps p p') (hq : L.Steps q q') :
    L.Steps (p.orElse q) (p'.orElse q') := by
  intro s
  rw [Step.orElse_eq_follow, Step.orElse_eq_follow]
  exact L.follow (hp s) (fun value rest => L.silent (.matched value rest)) fun _ _ _ => hq s

theorem first {ps ps' : List (Step α)} (h : List.Forall₂ L.Steps ps ps') :
    L.Steps (Step.first ps) (Step.first ps') := by
  induction h with
  | nil => exact fun s => L.silent (.refl N _)
  | cons h _ ih => exact h.orElse ih

theorem each {ps ps' : List (Step α)} (h : List.Forall₂ L.Steps ps ps') :
    L.Steps (Step.each ps) (Step.each ps') := by
  induction h with
  | nil => exact fun s => L.silent (.refl N _)
  | cons h _ ih =>
    intro s
    rw [Step.each_cons_eq_follow, Step.each_cons_eq_follow]
    refine L.follow (h s) (fun value rest => ?_) fun hreason _ _ => L.silent (.failed hreason s s)
    exact L.follow (ih rest) (fun values rest => L.silent (.matched _ rest))
      fun hreason _ _ => L.silent (.failed hreason s s)

theorem round {name name' : String} (hname : N name name') {p p' : Step α}
    {next next' : Step (List α)} (h : L.Steps p p') (hn : L.Steps next next') :
    L.Steps (Step.round name p next) (Step.round name' p' next') := by
  intro s
  rw [Step.round_eq_follow, Step.round_eq_follow]
  refine L.follow (h s) (fun value rest => ?_) fun _ _ _ => L.silent (.matched [] s)
  split
  · exact map (fun _ => hn rest) (value :: ·) s
  · exact L.silent (.raised (.emptyRepeat hname))

theorem many {name name' : String} (hname : N name name') {p p' : Step α} (h : L.Steps p p') :
    L.Steps (Step.many name p) (Step.many name' p') := by
  have rounds (n : Nat) : L.Steps (Step.rounds name p n) (Step.rounds name' p' n) := by
    induction n with
    | zero => exact h.round hname fun _ => L.silent (.raised (.emptyRepeat hname))
    | succ n ih => exact h.round hname ih
  exact fun s => rounds s.length s

theorem absent {name name' : String} (hname : N name name') {p p' : Step Value}
    (h : L.Steps p p') : L.Steps (Step.absent name p) (Step.absent name' p') := by
  intro s
  rw [Step.absent_eq_follow, Step.absent_eq_follow]
  exact L.follow (h s) (fun _ _ => L.silent (.failed (.unexpected hname) s s))
    fun _ _ _ => L.silent (.matched Value.nothing s)

theorem await {routine : Routine} {p p' : Step Value} {next next' : Value → Step Value}
    (h : L.Steps p p') (hn : ∀ value s, L.Within routine (next value s) (next' value s))
    (start s : Input) :
    L.Within routine (Step.await routine start p next s) (Step.await routine start p' next' s) := by
  rw [Step.await_eq_follow, Step.await_eq_follow]
  exact L.awaited (h s) hn start

end Likeness.Steps

end ParserKit

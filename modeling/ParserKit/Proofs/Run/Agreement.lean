import ParserKit.Parser.Step

namespace ParserKit

universe u v w

variable {α : Type u} {β : Type v} {γ : Type w}

/-- The same answer, whatever a failure leaves. -/
inductive Reply.Agree : Reply α → Reply α → Prop
  | matched (value : α) (rest : Input) : Agree (.matched value rest) (.matched value rest)
  | failed (reason : String) (rest rest' : Input) :
      Agree (.failed reason rest) (.failed reason rest')
  | raised (fault : Fault) : Agree (.raised fault) (.raised fault)

abbrev Renaming := String → String → Prop

inductive ReasonUpTo (N : Renaming) : String → String → Prop
  | same (reason : String) : ReasonUpTo N reason reason
  | unexpected {name name' : String} (h : N name name') :
      ReasonUpTo N ("unexpected " ++ name) ("unexpected " ++ name')

inductive FaultUpTo (N : Renaming) : Fault → Fault → Prop
  | same (fault : Fault) : FaultUpTo N fault fault
  | emptyRepeat {name name' : String} (h : N name name') :
      FaultUpTo N (.emptyRepeat name) (.emptyRepeat name')

inductive Reply.AgreeUpTo (N : Renaming) : Reply α → Reply α → Prop
  | matched (value : α) (rest : Input) : AgreeUpTo N (.matched value rest) (.matched value rest)
  | failed {reason reason' : String} (h : ReasonUpTo N reason reason') (rest rest' : Input) :
      AgreeUpTo N (.failed reason rest) (.failed reason' rest')
  | raised {fault fault' : Fault} (h : FaultUpTo N fault fault') :
      AgreeUpTo N (.raised fault) (.raised fault')

namespace Reply

theorem Agree.refl (r : Reply α) : r.Agree r := by
  cases r with
  | matched value rest => exact .matched value rest
  | failed reason rest => exact .failed reason rest rest
  | raised fault => exact .raised fault

theorem Agree.symm {r r' : Reply α} (h : r.Agree r') : r'.Agree r := by
  cases h with
  | matched value rest => exact .matched value rest
  | failed reason rest rest' => exact .failed reason rest' rest
  | raised fault => exact .raised fault

theorem Agree.trans {r r' r'' : Reply α} (h : r.Agree r') (h' : r'.Agree r'') : r.Agree r'' := by
  cases h with
  | matched value rest => exact h'
  | failed reason rest rest' =>
    cases h' with
    | failed _ _ rest'' => exact .failed reason rest rest''
  | raised fault => exact h'

theorem Agree.andThen {r r' : Reply α} {next next' : α → Input → Reply β} (h : r.Agree r')
    (hn : ∀ value rest, (next value rest).Agree (next' value rest)) (start start' : Input) :
    (r.andThen start next).Agree (r'.andThen start' next') := by
  cases h with
  | matched value rest => exact hn value rest
  | failed reason rest rest' => exact .failed reason start start'
  | raised fault => exact .raised fault

theorem map_andThen (r : Reply α) (f : α → β) (start : Input) (next : β → Input → Reply γ) :
    (r.map f).andThen start next = r.andThen start fun a => next (f a) := by
  cases r <;> rfl

theorem Agree.assoc (r : Reply α) (start start' start'' : Input) (f : α → Input → Reply β)
    (g : β → Input → Reply γ) :
    ((r.andThen start f).andThen start' g).Agree
      (r.andThen start'' fun a rest => (f a rest).andThen rest g) := by
  cases r with
  | failed reason rest => exact .failed reason start' start''
  | raised fault => exact .raised fault
  | matched a rest =>
    show ((f a rest).andThen start' g).Agree ((f a rest).andThen rest g)
    exact (Agree.refl _).andThen (fun _ _ => .refl _) start' rest

theorem AgreeUpTo.refl (N : Renaming) (r : Reply α) : r.AgreeUpTo N r := by
  cases r with
  | matched value rest => exact .matched value rest
  | failed reason rest => exact .failed (.same reason) rest rest
  | raised fault => exact .raised (.same fault)

theorem AgreeUpTo.agree {N : Renaming} (hN : ∀ name name', N name name' → name = name')
    {r r' : Reply α} (h : r.AgreeUpTo N r') : r.Agree r' := by
  cases h with
  | matched value rest => exact .matched value rest
  | failed h rest rest' =>
    cases h with
    | same => exact .failed _ rest rest'
    | unexpected h =>
      rw [hN _ _ h]
      exact .failed _ rest rest'
  | raised h =>
    cases h with
    | same => exact .raised _
    | emptyRepeat h =>
      rw [hN _ _ h]
      exact .raised _

end Reply

end ParserKit

import ParserKit.Parser.Step

/-! Events as brackets.  The attempt of a named parser and the life of a script each open with one
event and close with another.  A word of events is nested if brackets are closed from the inside
out, which a stack decides. -/

namespace ParserKit

universe u

inductive Bracket
  | attempt (name : String)
  | script (routine : Routine)
  deriving DecidableEq, Repr

namespace Bracket

def isAttempt : Bracket → Bool
  | attempt _ => true
  | script _ => false

def isScript (keep : Routine → Bool) : Bracket → Bool
  | attempt _ => false
  | script routine => keep routine

def closer : Bracket → Event
  | attempt name => .failed name ""
  | script routine => .left routine

end Bracket

namespace Event

def bracket : Event → Bracket
  | tried name _ => .attempt name
  | matched name _ _ => .attempt name
  | failed name _ => .attempt name
  | entered routine => .script routine
  | received routine _ => .script routine
  | left routine => .script routine

inductive Role
  | opens
  | within
  | closes

def role : Event → Role
  | tried .. => .opens
  | matched .. => .closes
  | failed .. => .closes
  | entered .. => .opens
  | received .. => .within
  | left .. => .closes

/-- The brackets which are open after an event, the innermost first.  Only the innermost one can be
closed, and only a script which is the innermost one receives a value. -/
def advance? (stack : List Bracket) (e : Event) : Option (List Bracket) :=
  match e.role with
  | .opens => some (e.bracket :: stack)
  | .within => if stack.head? = some e.bracket then some stack else none
  | .closes => if stack.head? = some e.bracket then some stack.tail else none

def openAfter? (stack : List Bracket) (es : List Event) : Option (List Bracket) :=
  es.foldlM advance? stack

/-- Each bracket that a word opens it also closes, the last opened one first. -/
def Nested (es : List Event) : Prop := openAfter? [] es = some []

instance (es : List Event) : Decidable (Nested es) :=
  inferInstanceAs (Decidable (openAfter? [] es = some []))

example : Nested [.tried "p" [], .tried "q" [], .failed "q" "", .failed "p" ""] := by decide

example : ¬ Nested [.tried "p" [], .tried "q" [], .failed "p" "", .failed "q" ""] := by decide

@[simp] theorem openAfter?_nil (stack : List Bracket) : openAfter? stack [] = some stack := rfl

theorem openAfter?_cons (stack : List Bracket) (e : Event) (es : List Event) :
    openAfter? stack (e :: es) = (advance? stack e).bind fun stack => openAfter? stack es :=
  List.foldlM_cons

theorem openAfter?_singleton (stack : List Bracket) (e : Event) :
    openAfter? stack [e] = advance? stack e := by
  rw [openAfter?_cons]
  exact Option.bind_fun_some _

theorem openAfter?_append (stack : List Bracket) (es fs : List Event) :
    openAfter? stack (es ++ fs) =
      (openAfter? stack es).bind fun stack => openAfter? stack fs :=
  List.foldlM_append

theorem openAfter?_append_of_eq {stack stack' : List Bracket} {es : List Event}
    (h : openAfter? stack es = some stack') (fs : List Event) :
    openAfter? stack (es ++ fs) = openAfter? stack' fs := by
  rw [openAfter?_append, h, Option.bind_some]

theorem advance?_opens {e : Event} (he : e.role = .opens) (stack : List Bracket) :
    advance? stack e = some (e.bracket :: stack) := by
  simp [advance?, he]

theorem advance?_within {e : Event} (he : e.role = .within) (stack : List Bracket) :
    advance? (e.bracket :: stack) e = some (e.bracket :: stack) := by
  simp [advance?, he]

theorem advance?_closes {e : Event} (he : e.role = .closes) (stack : List Bracket) :
    advance? (e.bracket :: stack) e = some stack := by
  simp [advance?, he]

theorem role_closer (b : Bracket) : b.closer.role = .closes := by
  cases b <;> rfl

theorem bracket_closer (b : Bracket) : b.closer.bracket = b := by
  cases b <;> rfl

theorem openAfter?_closers (stack : List Bracket) :
    openAfter? stack (stack.map Bracket.closer) = some [] := by
  induction stack with
  | nil => rfl
  | cons b stack ih =>
    have hb := advance?_closes (role_closer b) stack
    rw [bracket_closer] at hb
    rw [List.map_cons, openAfter?_cons, hb, Option.bind_some, ih]

theorem exists_nested_append {es : List Event} {stack : List Bracket}
    (h : openAfter? [] es = some stack) : ∃ missing, Nested (es ++ missing) := by
  refine ⟨stack.map Bracket.closer, ?_⟩
  rw [Nested, openAfter?_append_of_eq h]
  exact openAfter?_closers stack

theorem advance?_cases {stack stack' : List Bracket} {e : Event}
    (h : advance? stack e = some stack') :
    (e.role = .opens ∧ stack' = e.bracket :: stack) ∨
      (e.role = .within ∧ stack' = stack ∧ ∃ outer, stack = e.bracket :: outer) ∨
      (e.role = .closes ∧ stack = e.bracket :: stack') := by
  rw [advance?] at h
  cases hr : e.role with
  | opens =>
    rw [hr] at h
    exact .inl ⟨rfl, (Option.some.inj h).symm⟩
  | within =>
    simp only [hr, Option.ite_none_right_eq_some, Option.some.injEq] at h
    exact .inr (.inl ⟨rfl, h.2.symm, List.head?_eq_some_iff.1 h.1⟩)
  | closes =>
    simp only [hr, Option.ite_none_right_eq_some, Option.some.injEq] at h
    obtain ⟨outer, rfl⟩ := List.head?_eq_some_iff.1 h.1
    exact .inr (.inr ⟨rfl, by rw [← h.2, List.tail_cons]⟩)

theorem advance?_filter (keep : Bracket → Bool) {stack stack' : List Bracket} {e : Event}
    (h : advance? stack e = some stack') :
    openAfter? (stack.filter keep) ([e].filter fun e => keep e.bracket) =
      some (stack'.filter keep) := by
  cases hk : keep e.bracket with
  | false =>
    have he : ([e].filter fun e => keep e.bracket) = [] :=
      List.filter_cons_of_neg (by simp [hk])
    rw [he]
    obtain ⟨_, rfl⟩ | ⟨_, rfl, _⟩ | ⟨_, rfl⟩ := advance?_cases h
    · simp [hk]
    · rfl
    · simp [hk]
  | true =>
    have he : ([e].filter fun e => keep e.bracket) = [e] := List.filter_cons_of_pos hk
    rw [he, openAfter?_cons]
    obtain ⟨hr, rfl⟩ | ⟨hr, rfl, outer, rfl⟩ | ⟨hr, rfl⟩ := advance?_cases h
    · rw [advance?_opens hr, List.filter_cons_of_pos hk]
      rfl
    · rw [List.filter_cons_of_pos hk, advance?_within hr]
      rfl
    · rw [List.filter_cons_of_pos hk, advance?_closes hr]
      rfl

theorem openAfter?_filter (keep : Bracket → Bool) {stack stack' : List Bracket} {es : List Event}
    (h : openAfter? stack es = some stack') :
    openAfter? (stack.filter keep) (es.filter fun e => keep e.bracket) =
      some (stack'.filter keep) := by
  induction es generalizing stack with
  | nil =>
    cases h
    rfl
  | cons e es ih =>
    rw [openAfter?_cons] at h
    obtain ⟨next, he, hes⟩ := Option.bind_eq_some_iff.1 h
    rw [← List.singleton_append, List.filter_append,
      openAfter?_append_of_eq (advance?_filter keep he)]
    exact ih hes

end Event

def Reply.Bracketed {α : Type u} (r : Reply α) (es : List Event) : Prop :=
  match r with
  | .raised _ => ∃ missing, Event.Nested (es ++ missing)
  | _ => Event.Nested es

end ParserKit

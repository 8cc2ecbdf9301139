import ParserKit.Proofs.Parser.Answer

namespace ParserKit

namespace Step

variable {α : Type} {p : Step α} {s t u : Input} {inputs : List Input} {a : α} {as : List α}

/-- Calls which match and shorten their input, each on what the one before has left: the inputs, the
values, and what is left in the end. -/
inductive Chain (p : Step α) : Input → List Input → List α → Input → Prop
  | nil (s : Input) : Chain p s [] [] s
  | cons {s t u : Input} {inputs : List Input} {a : α} {as : List α} :
      (p s).reply = .matched a t → t.length < s.length → Chain p t inputs as u →
      Chain p s (s :: inputs) (a :: as) u

def Ends (p : Step α) (u : Input) : Prop :=
  ∀ a t, (p u).reply = .matched a t → u.length ≤ t.length

theorem Chain.length_le (h : Chain p s inputs as u) : inputs.length + u.length ≤ s.length := by
  induction h with
  | nil s => exact Nat.le_of_eq (Nat.zero_add s.length)
  | cons _ hlt _ ih =>
    rw [List.length_cons]
    omega

theorem exists_chain (p : Step α) (s : Input) :
    ∃ inputs as u, Chain p s inputs as u ∧ Ends p u := by
  induction hn : s.length using Nat.strongRecOn generalizing s with
  | _ n ih =>
    subst hn
    have hlast (h : Ends p s) : ∃ inputs as u, Chain p s inputs as u ∧ Ends p u :=
      ⟨[], [], s, .nil s, h⟩
    cases hr : (p s).reply with
    | failed _ _ => exact hlast fun a t h => by rw [hr] at h; cases h
    | raised _ => exact hlast fun a t h => by rw [hr] at h; cases h
    | matched a t =>
      cases Nat.lt_or_ge t.length s.length with
      | inl hlt =>
        obtain ⟨inputs, as, u, hchain, hu⟩ := ih t.length hlt t rfl
        exact ⟨s :: inputs, a :: as, u, .cons hr hlt hchain, hu⟩
      | inr hle => exact hlast fun a' t' h => by rw [hr] at h; cases h; exact hle

theorem Chain.end_unique {inputs' : List Input} {as' : List α} {u' : Input}
    (h : Chain p s inputs as u) (hu : Ends p u) (h' : Chain p s inputs' as' u') (hu' : Ends p u') :
    u = u' := by
  induction h generalizing inputs' as' with
  | nil s =>
    cases h' with
    | nil => rfl
    | cons ha hlt _ => exact absurd (hu _ _ ha) (Nat.not_le.2 hlt)
  | cons ha hlt _ ih =>
    cases h' with
    | nil => exact absurd (hu' _ _ ha) (Nat.not_le.2 hlt)
    | cons ha' _ h' =>
      cases ha.symm.trans ha'
      exact ih hu h'

theorem many_of_matched (name : String) (h : (p s).reply = .matched a t)
    (hlt : t.length < s.length) :
    many name p s = ((many name p t).map (a :: ·)).emit (p s).events := by
  rw [many_eq_round]
  simp [round, h, hlt]

theorem Chain.many_eq (name : String) (h : Chain p s inputs as u) :
    many name p s =
      ((many name p u).map (as ++ ·)).emit (inputs.flatMap fun t => (p t).events) := by
  induction h with
  | nil s => exact congrArg (Run.mk _) (Reply.map_id _).symm
  | cons ha hlt _ ih =>
    rw [many_of_matched name ha hlt, ih]
    simp only [Run.map, Run.emit, List.flatMap_cons, List.append_assoc, Reply.map_map]
    rfl

theorem Ends.many_eq (name : String) (h : Ends p u) :
    many name p u = ⟨(p u).events, match (p u).reply with
      | .matched _ _ => .raised (.emptyRepeat name)
      | .failed _ _ => .matched [] u
      | .raised fault => .raised fault⟩ := by
  rw [many_eq_round]
  cases hr : (p u).reply with
  | matched a t => simp [round, hr, Nat.not_lt.2 (h a t hr)]
  | failed reason t => simp [round, hr]
  | raised fault => simp [round, hr]

end Step

namespace Parser

variable (ctx : Context) (p : Parser) (s : Input)

/-- A repetition which starts at `s` calls the parser on `u`, after it has matched the values `vs`. -/
def Reaches (vs : List Value) (u : Input) : Prop :=
  ∃ inputs, Step.Chain (p.step ctx) s inputs vs u

/-- A call is reached which matches, but leaves as much as it was given or more. -/
def GetsStuck : Prop :=
  ∃ vs u v t, p.Reaches ctx s vs u ∧ p.answer ctx u = .matched v t ∧ u.length ≤ t.length

def Breaks (fault : Fault) : Prop :=
  ∃ vs u, p.Reaches ctx s vs u ∧ p.answer ctx u = .raised fault

variable {ctx p s} {vs : List Value} {u : Input} {fault : Fault}

theorem answers_of_reaches (h : p.Reaches ctx s vs u) :
    p.answers ctx s = (p.answers ctx u).map (vs ++ ·) := by
  obtain ⟨inputs, hchain⟩ := h
  rw [answers, hchain.many_eq]
  rfl

theorem answer_many_of_failed {reason : String} {t : Input} (h : p.Reaches ctx s vs u)
    (hu : p.answer ctx u = .failed reason t) : p.many.answer ctx s = .matched (.list vs) u := by
  rw [answer_many, answers_of_reaches h, answers_of_failed hu, Reply.map_matched, List.append_nil]
  rfl

theorem GetsStuck.answer_many (h : p.GetsStuck ctx s) :
    p.many.answer ctx s = .raised (.emptyRepeat p.name) := by
  obtain ⟨vs, u, v, t, h, hu, hle⟩ := h
  rw [Parser.answer_many, answers_of_reaches h, answers_of_stuck hu hle]
  rfl

theorem Breaks.answer_many (h : p.Breaks ctx s fault) : p.many.answer ctx s = .raised fault := by
  obtain ⟨vs, u, h, hu⟩ := h
  rw [Parser.answer_many, answers_of_reaches h, answers_of_raised hu]
  rfl

theorem GetsStuck.not_breaks (h : p.GetsStuck ctx s) : ¬ p.Breaks ctx s fault := by
  rintro ⟨vs', u', ⟨_, hchain'⟩, hu'⟩
  obtain ⟨vs, u, v, t, ⟨_, hchain⟩, hu, hle⟩ := h
  have hends : Step.Ends (p.step ctx) u := fun a t' ha => by
    cases ha.symm.trans hu
    exact hle
  have hends' : Step.Ends (p.step ctx) u' := fun a t' ha => by cases ha.symm.trans hu'
  obtain rfl := hchain.end_unique hends hchain' hends'
  cases hu.symm.trans hu'

theorem answer_many_cases (ctx : Context) (p : Parser) (s : Input) :
    (∃ vs u reason t, p.Reaches ctx s vs u ∧ p.answer ctx u = .failed reason t ∧
        p.many.answer ctx s = .matched (.list vs) u) ∨
      (p.GetsStuck ctx s ∧ p.many.answer ctx s = .raised (.emptyRepeat p.name)) ∨
      ∃ fault, p.Breaks ctx s fault ∧ p.many.answer ctx s = .raised fault := by
  obtain ⟨inputs, vs, u, hchain, hends⟩ := Step.exists_chain (p.step ctx) s
  have hu : p.Reaches ctx s vs u := ⟨inputs, hchain⟩
  cases hr : p.answer ctx u with
  | failed reason t => exact .inl ⟨vs, u, reason, t, hu, hr, answer_many_of_failed hu hr⟩
  | matched v t =>
    have h : p.GetsStuck ctx s := ⟨vs, u, v, t, hu, hr, hends v t hr⟩
    exact .inr (.inl ⟨h, h.answer_many⟩)
  | raised fault =>
    have h : p.Breaks ctx s fault := ⟨vs, u, hu, hr⟩
    exact .inr (.inr ⟨fault, h, h.answer_many⟩)

theorem answer_many_matched_iff (v : Value) (rest : Input) :
    p.many.answer ctx s = .matched v rest ↔ ∃ vs, v = .list vs ∧ p.Reaches ctx s vs rest ∧
      ∃ reason t, p.answer ctx rest = .failed reason t := by
  constructor
  · intro h
    obtain ⟨vs, u, reason, t, hu, hr, h'⟩ | ⟨_, h'⟩ | ⟨fault, _, h'⟩ := answer_many_cases ctx p s
    · cases h.symm.trans h'
      exact ⟨vs, rfl, hu, reason, t, hr⟩
    · cases h.symm.trans h'
    · cases h.symm.trans h'
  · rintro ⟨vs, rfl, hu, reason, t, hr⟩
    exact answer_many_of_failed hu hr

theorem answer_many_raised_iff :
    p.many.answer ctx s = .raised fault ↔
      (p.GetsStuck ctx s ∧ fault = .emptyRepeat p.name) ∨ p.Breaks ctx s fault := by
  constructor
  · intro h
    obtain ⟨vs, u, reason, t, _, _, h'⟩ | ⟨hstuck, h'⟩ | ⟨fault', hbreaks, h'⟩ :=
      answer_many_cases ctx p s
    · cases h.symm.trans h'
    · cases h.symm.trans h'
      exact .inl ⟨hstuck, rfl⟩
    · cases h.symm.trans h'
      exact .inr hbreaks
  · rintro (⟨hstuck, rfl⟩ | hbreaks)
    · exact hstuck.answer_many
    · exact hbreaks.answer_many

theorem answer_many_ne_failed (reason : String) (rest : Input) :
    p.many.answer ctx s ≠ .failed reason rest := by
  intro h
  obtain ⟨vs, u, _, t, _, _, h'⟩ | ⟨_, h'⟩ | ⟨fault, _, h'⟩ := answer_many_cases ctx p s <;>
    cases h.symm.trans h'

theorem answer_many1 (ctx : Context) (p : Parser) (s : Input) :
    p.many1.answer ctx s = match p.many.answer ctx s with
      | .matched (.list []) rest => .failed "at least one expected" rest
      | r => r := by
  rw [many1, answer_named, answer_bind]
  cases hr : p.many.answer ctx s with
  | failed reason rest => exact absurd hr (answer_many_ne_failed reason rest)
  | raised fault => rfl
  | matched v rest =>
    obtain ⟨vs, rfl, _⟩ := (answer_many_matched_iff v rest).1 hr
    rw [Reply.andThen_matched]
    cases vs with
    | nil => rw [answer_named, answer_fail]
    | cons v vs => exact answer_succeed ctx rfl rest

/-- The events of a repetition are those of its calls, of which there are no more than one for each
character and one for the end.  It matches what has been matched up to a call which does not match.
It raises a fault of its own where it gets stuck, and otherwise only what a call raises.  Where one
match is needed, this is all that differs. -/
theorem repetition_ends (ctx : Context) (p : Parser) (s : Input) :
    (∃ inputs vs u, Step.Chain (p.step ctx) s inputs vs u ∧ Step.Ends (p.step ctx) u ∧
      (inputs ++ [u]).length ≤ s.length + 1 ∧
      ((Form.many p).step ctx s).events =
        (inputs ++ [u]).flatMap fun t => (p.step ctx t).events) ∧
    (∀ reason rest, p.many.answer ctx s ≠ .failed reason rest) ∧
    (∀ v rest, p.many.answer ctx s = .matched v rest ↔ ∃ vs, v = .list vs ∧
      p.Reaches ctx s vs rest ∧ ∃ reason t, p.answer ctx rest = .failed reason t) ∧
    (p.many.answer ctx s = .raised (.emptyRepeat p.name) ∧
      ¬ p.Breaks ctx s (.emptyRepeat p.name) ↔ p.GetsStuck ctx s) ∧
    (∀ fault, p.many.answer ctx s = .raised fault ∧ ¬ p.GetsStuck ctx s ↔
      p.Breaks ctx s fault) ∧
    ((∃ rest, p.many1.answer ctx s = .failed "at least one expected" rest) ↔
      ∃ rest, p.many.answer ctx s = .matched (.list []) rest) ∧
    ((∀ rest, p.many.answer ctx s ≠ .matched (.list []) rest) →
      p.many1.answer ctx s = p.many.answer ctx s) := by
  refine ⟨?_, answer_many_ne_failed, answer_many_matched_iff, ⟨?_, fun h => ?_⟩,
    fun fault => ⟨?_, fun h => ?_⟩, ⟨?_, ?_⟩, fun h => ?_⟩
  · obtain ⟨inputs, vs, u, hchain, hends⟩ := Step.exists_chain (p.step ctx) s
    have hlen := hchain.length_le
    refine ⟨inputs, vs, u, hchain, hends, ?_, ?_⟩
    · rw [List.length_append, List.length_singleton]
      omega
    · show (Step.many p.name (p.step ctx) s).events = _
      rw [hchain.many_eq, hends.many_eq, List.flatMap_append, List.flatMap_singleton]
      rfl
  · rintro ⟨h, hbreaks⟩
    exact ((answer_many_raised_iff.1 h).resolve_right hbreaks).1
  · exact ⟨answer_many_raised_iff.2 (.inl ⟨h, rfl⟩), h.not_breaks⟩
  · rintro ⟨h, hstuck⟩
    exact (answer_many_raised_iff.1 h).resolve_left fun h => hstuck h.1
  · exact ⟨answer_many_raised_iff.2 (.inr h), fun hstuck => hstuck.not_breaks h⟩
  · rintro ⟨rest, h⟩
    rw [answer_many1] at h
    split at h
    · next rest' hr => exact ⟨rest', hr⟩
    · exact absurd h (answer_many_ne_failed _ rest)
  · rintro ⟨rest, h⟩
    exact ⟨rest, by rw [answer_many1, h]⟩
  · rw [answer_many1]
    split
    · next rest hr => exact absurd hr (h rest)
    · rfl

end Parser

end ParserKit

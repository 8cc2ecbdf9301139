import ParserKit.Proofs.Parser.Outcome
import ParserKit.Proofs.Parser.Repetition

namespace ParserKit.Parser

section

variable (ctx : Context) (separator item : Parser)

/-- The items after a first one, each with a separator before it: their values, and what is left. -/
inductive Series : Input → List Value → Input → Prop
  | nil (s : Input) : Series s [] s
  | cons {s t u rest : Input} {w v : Value} {vs : List Value} :
      separator.answer ctx s = .matched w t → item.answer ctx t = .matched v u →
        u.length < s.length → Series u vs rest → Series s (v :: vs) rest

/-- There is no separator, or no item after it. -/
inductive Stops (s : Input) : Prop
  | separator {reason : String} {rest : Input} :
      separator.answer ctx s = .failed reason rest → Stops s
  | item {w : Value} {t : Input} {reason : String} {rest : Input} :
      separator.answer ctx s = .matched w t → item.answer ctx t = .failed reason rest → Stops s

inductive Sticks (s : Input) : Prop
  | intro {w v : Value} {t rest : Input} :
      separator.answer ctx s = .matched w t → item.answer ctx t = .matched v rest →
        s.length ≤ rest.length → Sticks s

inductive Throws (s : Input) (fault : Fault) : Prop
  | separator : separator.answer ctx s = .raised fault → Throws s fault
  | item {w : Value} {t : Input} :
      separator.answer ctx s = .matched w t → item.answer ctx t = .raised fault → Throws s fault

end

theorem answer_sepBy1 (ctx : Context) (separator item : Parser) (s : Input) :
    (sepBy1 separator item).answer ctx s =
      (item.answer ctx s).andThen s fun v t =>
        ((separator.skipThen item).answers ctx t).andThen s fun vs u =>
          .matched (.list (v :: vs)) u := by
  rw [sepBy1, answer_map_pair]
  congr
  funext v t
  rw [answer_many]
  cases (separator.skipThen item).answers ctx t <;> rfl

section

variable {ctx : Context} {separator item : Parser} {s u : Input} {vs : List Value} {fault : Fault}

theorem answer_skipThen_of_matched (hctx : ctx.Proper) {w : Value} {t : Input}
    (h : separator.answer ctx s = .matched w t) :
    (separator.skipThen item).answer ctx s = (item.answer ctx t).andThen s .matched := by
  rw [answer_skipThen_eq hctx, h, Reply.andThen_matched]

theorem Series.reaches (hctx : ctx.Proper) (h : Series ctx separator item s vs u) :
    (separator.skipThen item).Reaches ctx s vs u := by
  induction h with
  | nil s => exact ⟨[], .nil s⟩
  | @cons s t u rest w v vs hw hv hlt _ ih =>
    obtain ⟨inputs, hchain⟩ := ih
    refine ⟨s :: inputs, .cons ?_ hlt hchain⟩
    rw [← answer, answer_skipThen_of_matched hctx hw, hv]
    rfl

theorem Stops.exists_failed (hctx : ctx.Proper) (h : Stops ctx separator item s) :
    ∃ reason, (separator.skipThen item).answer ctx s = .failed reason s := by
  cases h with
  | separator hw =>
    rw [answer_skipThen_eq hctx, hw]
    exact ⟨_, rfl⟩
  | item hw hv =>
    rw [answer_skipThen_of_matched hctx hw, hv]
    exact ⟨_, rfl⟩

theorem Throws.answer_eq (hctx : ctx.Proper) (h : Throws ctx separator item s fault) :
    (separator.skipThen item).answer ctx s = .raised fault := by
  cases h with
  | separator hw => rw [answer_skipThen_eq hctx, hw, Reply.andThen_raised]
  | item hw hv => rw [answer_skipThen_of_matched hctx hw, hv, Reply.andThen_raised]

theorem Sticks.answer_eq (hctx : ctx.Proper) (h : Sticks ctx separator item s) :
    ∃ v rest, (separator.skipThen item).answer ctx s = .matched v rest ∧
      s.length ≤ rest.length := by
  obtain ⟨hw, hv, hle⟩ := h
  exact ⟨_, _, by rw [answer_skipThen_of_matched hctx hw, hv]; rfl, hle⟩

end

theorem exists_series (ctx : Context) (separator item : Parser) (s : Input) :
    ∃ vs u, Series ctx separator item s vs u ∧ (Stops ctx separator item u ∨
      Sticks ctx separator item u ∨ ∃ fault, Throws ctx separator item u fault) := by
  induction hn : s.length using Nat.strongRecOn generalizing s with
  | _ n ih =>
    subst hn
    cases hw : separator.answer ctx s with
    | failed reason rest => exact ⟨[], s, .nil s, .inl (.separator hw)⟩
    | raised fault => exact ⟨[], s, .nil s, .inr (.inr ⟨fault, .separator hw⟩)⟩
    | matched w t =>
      cases hv : item.answer ctx t with
      | failed reason rest => exact ⟨[], s, .nil s, .inl (.item hw hv)⟩
      | raised fault => exact ⟨[], s, .nil s, .inr (.inr ⟨fault, .item hw hv⟩)⟩
      | matched v u =>
        cases Nat.lt_or_ge u.length s.length with
        | inr hle => exact ⟨[], s, .nil s, .inr (.inl ⟨hw, hv, hle⟩)⟩
        | inl hlt =>
          obtain ⟨vs, rest, hseries, hend⟩ := ih u.length hlt u rfl
          exact ⟨v :: vs, rest, .cons hw hv hlt hseries, hend⟩

theorem answer_of_series {ctx : Context} (hctx : ctx.Proper) {separator item : Parser}
    {s t u : Input} {v : Value} {vs : List Value} (hv : item.answer ctx s = .matched v t)
    (h : Series ctx separator item t vs u) {r : Reply (List Value)}
    (hu : (separator.skipThen item).answers ctx u = r)
    (hr : ∀ reason rest, r ≠ .failed reason rest) :
    ∀ p ∈ [sepBy1 separator item, sepBy separator item],
      p.answer ctx s = r.map fun ws => .list (v :: (vs ++ ws)) := by
  have hone : (sepBy1 separator item).answer ctx s = r.map fun ws => .list (v :: (vs ++ ws)) := by
    rw [answer_sepBy1, hv, Reply.andThen_matched, answers_of_reaches (h.reaches hctx), hu]
    cases r with
    | failed reason rest => exact absurd rfl (hr reason rest)
    | _ => rfl
  rw [List.forall_mem_cons, List.forall_mem_singleton, answer_sepBy, hone]
  cases r with
  | failed reason rest => exact absurd rfl (hr reason rest)
  | _ => exact ⟨rfl, rfl⟩

/-- Without a first item there is nothing to separate.  After one, there is a series of items up to
the first place where no separator comes, or none with an item after it; this is where the input is
left, and all items have been kept.  A separator and an item which do not shorten the input are a
fault, and where a parser raises a fault of its own, it is not taken for the end. -/
theorem series_ends (rules : Rules) (debug : Bool) (budget : Nat) (separator item : Parser)
    (s : Input) :
    let ctx := context rules debug budget
    let both (r : Reply Value) := ∀ p ∈ [sepBy1 separator item, sepBy separator item],
      p.answer ctx s = r
    (∀ reason rest, item.answer ctx s = .failed reason rest →
      (sepBy1 separator item).answer ctx s = .failed reason s ∧
        (sepBy separator item).answer ctx s = .matched (.list []) s) ∧
    (∀ fault, item.answer ctx s = .raised fault → both (.raised fault)) ∧
    ∀ v t, item.answer ctx s = .matched v t →
      (∃ vs u, Series ctx separator item t vs u ∧ (Stops ctx separator item u ∨
        Sticks ctx separator item u ∨ ∃ fault, Throws ctx separator item u fault)) ∧
      ∀ vs u, Series ctx separator item t vs u →
        (Stops ctx separator item u → both (.matched (.list (v :: vs)) u)) ∧
        (Sticks ctx separator item u →
          both (.raised (.emptyRepeat (separator.skipThen item).name))) ∧
        ∀ fault, Throws ctx separator item u fault → both (.raised fault) := by
  intro ctx both
  have hctx : ctx.Proper := proper_context rules debug budget
  refine ⟨fun reason rest h => ?_, fun fault h => ?_, fun v t h =>
    ⟨exists_series ctx separator item t, fun vs u hseries =>
      ⟨fun hstops => ?_, fun hsticks => ?_, fun fault hthrows => ?_⟩⟩⟩
  · have hone : (sepBy1 separator item).answer ctx s = .failed reason s := by
      rw [answer_sepBy1, h, Reply.andThen_failed]
    exact ⟨hone, by rw [answer_sepBy, hone, Reply.orElse_failed]⟩
  · have hone : (sepBy1 separator item).answer ctx s = .raised fault := by
      rw [answer_sepBy1, h, Reply.andThen_raised]
    refine List.forall_mem_cons.2 ⟨hone, List.forall_mem_singleton.2 ?_⟩
    rw [answer_sepBy, hone, Reply.orElse_raised]
  · obtain ⟨reason, hu⟩ := hstops.exists_failed hctx
    have hboth := answer_of_series hctx h hseries (answers_of_failed hu) (by simp)
    simp only [Reply.map_matched, List.append_nil] at hboth
    exact hboth
  · obtain ⟨w, rest, hu, hle⟩ := hsticks.answer_eq hctx
    exact answer_of_series hctx h hseries (answers_of_stuck hu hle) (by simp)
  · exact answer_of_series hctx h hseries (answers_of_raised (hthrows.answer_eq hctx)) (by simp)

example : (sepBy (char ',') digit).answer (context (fun _ => digit) false 0) ['1', ',', '2', ','] =
    .matched (.list [.text "1", .text "2"]) [','] := by
  rfl

end ParserKit.Parser

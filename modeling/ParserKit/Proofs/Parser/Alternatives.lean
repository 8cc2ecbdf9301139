import ParserKit.Proofs.Parser.Answer

namespace ParserKit

namespace Reply

variable {α : Type} {r r' : Reply α}

def isFailed : Reply α → Bool
  | failed _ _ => true
  | _ => false

theorem orElse_of_isFailed (h : r.isFailed = true) : r.orElse r' = r' := by
  cases r with
  | failed reason rest => rfl
  | _ => cases h

theorem orElse_of_not_isFailed (h : r.isFailed = false) : r.orElse r' = r := by
  cases r with
  | failed reason rest => cases h
  | _ => rfl

theorem eq_of_orElse_failed {reason : String} {rest : Input}
    (h : r.orElse (failed reason rest) = r') (hr : r'.isFailed = false) : r = r' := by
  subst h
  cases r with
  | failed _ _ => cases hr
  | _ => rfl

@[simp] theorem isFailed_failed (reason : String) (rest : Input) :
    (failed reason rest : Reply α).isFailed = true := rfl

@[simp] theorem isFailed_orElse (r r' : Reply α) :
    (r.orElse r').isFailed = (r.isFailed && r'.isFailed) := by
  cases r <;> rfl

theorem exists_of_isFailed (h : r.isFailed = true) : ∃ reason rest, r = failed reason rest := by
  cases r with
  | failed reason rest => exact ⟨reason, rest, rfl⟩
  | _ => cases h

end Reply

namespace Event

def IsAttempt (names : List String) (s : Input) : Event → Prop
  | tried name input => name ∈ names ∧ input = s
  | matched name _ _ => name ∈ names
  | failed name _ => name ∈ names
  | _ => False

/-- The given events, with nothing in between but records of such attempts. -/
inductive Framed (names : List String) (s : Input) : List Event → List Event → Prop
  | nil : Framed names s [] []
  | inner (e : Event) {es fs : List Event} :
      Framed names s es fs → Framed names s (e :: es) (e :: fs)
  | frame {e : Event} {es fs : List Event} :
      e.IsAttempt names s → Framed names s es fs → Framed names s es (e :: fs)

namespace Framed

variable {names names' : List String} {s : Input} {es es' fs fs' : List Event}

theorem refl : (es : List Event) → Framed names s es es
  | [] => .nil
  | e :: es => .inner e (refl es)

theorem append (h : Framed names s es fs) (h' : Framed names s es' fs') :
    Framed names s (es ++ es') (fs ++ fs') := by
  induction h with
  | nil => exact h'
  | inner e _ ih => exact .inner e ih
  | frame he _ ih => exact .frame he ih

theorem mono (h : Framed names s es fs) (hnames : names ⊆ names') : Framed names' s es fs := by
  induction h with
  | nil => exact .nil
  | inner e _ ih => exact .inner e ih
  | @frame e _ _ he _ ih =>
    refine .frame ?_ ih
    cases e with
    | tried name input => exact ⟨hnames he.1, he.2⟩
    | matched name v rest => exact hnames he
    | failed name reason => exact hnames he
    | _ => exact he

end Framed

end Event

namespace Step

theorem framed_logged {names : List String} {name : String} {p : Step Value} {s : Input}
    {es : List Event} (debug : Bool) (hname : name ∈ names)
    (h : Event.Framed names s es (p s).events) :
    Event.Framed names s es (logged debug name p s).events := by
  have hclosing : Event.Framed names s [] (closing name (p s).reply) := by
    cases (p s).reply with
    | matched v rest => exact .frame hname .nil
    | failed reason rest => exact .frame hname .nil
    | raised fault => exact .nil
  cases debug with
  | false => exact h
  | true =>
    have hevents := h.append hclosing
    rw [List.append_nil] at hevents
    exact .frame ⟨hname, rfl⟩ hevents

end Step

namespace Parser

/-- Alternatives are tried in turn as long as they fail: which are tried, and which are not. -/
inductive Tries (ctx : Context) (s : Input) :
    List Parser → List Parser → List Parser → Prop
  | nil : Tries ctx s [] [] []
  | failed {p : Parser} {ps tried untried : List Parser} :
      (p.answer ctx s).isFailed = true → Tries ctx s ps tried untried →
        Tries ctx s (p :: ps) (p :: tried) untried
  | settled {p : Parser} (ps : List Parser) :
      (p.answer ctx s).isFailed = false → Tries ctx s (p :: ps) [p] ps

def eventsOn (ctx : Context) (s : Input) (ps : List Parser) : List Event :=
  ps.flatMap fun p => (p.step ctx s).events

namespace Tries

variable {ctx : Context} {s : Input} {ps qs tried untried tried' untried' : List Parser}

theorem append_of_failed (hps : ∀ p ∈ ps, (p.answer ctx s).isFailed = true)
    (h : Tries ctx s qs tried untried) : Tries ctx s (ps ++ qs) (ps ++ tried) untried := by
  induction ps with
  | nil => exact h
  | cons p ps ih =>
    rw [List.forall_mem_cons] at hps
    exact .failed hps.1 (ih hps.2)

theorem eq_of_failed (h : Tries ctx s ps tried untried)
    (hps : ∀ p ∈ ps, (p.answer ctx s).isFailed = true) : tried = ps := by
  induction h with
  | nil => rfl
  | failed _ _ ih => rw [ih fun p hp => hps p (List.mem_cons_of_mem _ hp)]
  | settled ps hp => rw [hps _ List.mem_cons_self] at hp; cases hp

theorem append_of_settled (h : Tries ctx s ps tried untried) {p : Parser} (hp : p ∈ ps)
    (hsettled : (p.answer ctx s).isFailed = false) (qs : List Parser) :
    Tries ctx s (ps ++ qs) tried (untried ++ qs) := by
  induction h with
  | nil => cases hp
  | failed hq _ ih =>
    refine .failed hq (ih ?_)
    refine (List.mem_cons.1 hp).resolve_left ?_
    rintro rfl
    rw [hsettled] at hq
    cases hq
  | settled ps hq => exact .settled (ps ++ qs) hq

end Tries

variable (ctx : Context) (s : Input)

@[simp] theorem eventsOn_singleton (p : Parser) : eventsOn ctx s [p] = (p.step ctx s).events :=
  List.flatMap_singleton ..

theorem eventsOn_append (ps qs : List Parser) :
    eventsOn ctx s (ps ++ qs) = eventsOn ctx s ps ++ eventsOn ctx s qs := List.flatMap_append

theorem events_orElse (p : Parser) (q : Step Value) :
    ((p.step ctx).orElse q s).events =
      if (p.answer ctx s).isFailed then (p.step ctx s).events ++ (q s).events
      else (p.step ctx s).events := by
  rw [Step.orElse, answer]
  cases (p.step ctx s).reply <;> rfl

theorem exists_tries (ps : List Parser) : ∃ tried untried, Tries ctx s ps tried untried ∧
    (Step.first (Parser.steps ctx ps) s).events = eventsOn ctx s tried := by
  induction ps with
  | nil => exact ⟨[], [], .nil, rfl⟩
  | cons p ps ih =>
    obtain ⟨tried, untried, h, hevents⟩ := ih
    rw [Parser.steps, Step.first, events_orElse, hevents]
    cases hp : (p.answer ctx s).isFailed with
    | true => exact ⟨p :: tried, untried, .failed hp h, rfl⟩
    | false =>
      refine ⟨[p], ps, .settled ps hp, ?_⟩
      rw [eventsOn_singleton]
      rfl

theorem answer_first_append (ps qs : List Parser) :
    (first (ps ++ qs)).answer ctx s =
      ((first ps).answer ctx s).orElse ((first qs).answer ctx s) := by
  induction ps with
  | nil => rw [List.nil_append, answer_first_nil, Reply.orElse_failed]
  | cons p ps ih =>
    rw [List.cons_append, answer_first_cons, answer_first_cons, ih, Reply.orElse_assoc]

/-- Alternatives in a chain, with brackets around any two neighbouring parts of it. -/
inductive Bracketing
  | single (p : Parser)
  | both (left right : Bracketing)

namespace Bracketing

def parser : Bracketing → Parser
  | single p => p
  | both left right => left.parser.orElse right.parser

def alternatives : Bracketing → List Parser
  | single p => [p]
  | both left right => left.alternatives ++ right.alternatives

def names : Bracketing → List String
  | single _ => []
  | both left right => (left.parser.orElse right.parser).name :: (left.names ++ right.names)

def fromLeft (p : Parser) (ps : List Parser) : Bracketing :=
  ps.foldl (fun b q => both b (single q)) (single p)

theorem parser_foldl (b : Bracketing) (ps : List Parser) :
    (ps.foldl (fun b q => both b (single q)) b).parser = ps.foldl Parser.orElse b.parser := by
  induction ps generalizing b with
  | nil => rfl
  | cons q ps ih => exact ih (both b (single q))

theorem alternatives_foldl (b : Bracketing) (ps : List Parser) :
    (ps.foldl (fun b q => both b (single q)) b).alternatives = b.alternatives ++ ps := by
  induction ps generalizing b with
  | nil => exact (List.append_nil _).symm
  | cons q ps ih =>
    rw [List.foldl_cons, ih, alternatives, alternatives, List.append_assoc, List.singleton_append]

theorem isFailed_answer (b : Bracketing) : (b.parser.answer ctx s).isFailed =
    b.alternatives.all fun p => (p.answer ctx s).isFailed := by
  induction b with
  | single p => simp [parser, alternatives]
  | both left right ihl ihr =>
    rw [parser, answer_orElse, Reply.isFailed_orElse, ihl, ihr, alternatives, List.all_append]

theorem answer_first (b : Bracketing) : (first b.alternatives).answer ctx s =
    (b.parser.answer ctx s).orElse (.failed "no match" s) := by
  induction b with
  | single p => rw [alternatives, answer_first_cons, answer_first_nil, parser]
  | both left right ihl ihr =>
    rw [alternatives, answer_first_append, ihl, ihr, parser, answer_orElse, Reply.orElse_assoc,
      Reply.orElse_assoc, Reply.orElse_failed]

theorem answer_of_isFailed {b : Bracketing} (h : (b.parser.answer ctx s).isFailed = true) :
    ∃ p, b.alternatives.getLast? = some p ∧ b.parser.answer ctx s = p.answer ctx s := by
  induction b with
  | single p => exact ⟨p, rfl, rfl⟩
  | both left right _ ihr =>
    rw [parser, answer_orElse, Reply.isFailed_orElse, Bool.and_eq_true] at h
    obtain ⟨p, hlast, hp⟩ := ihr h.2
    refine ⟨p, ?_, ?_⟩
    · rw [alternatives, List.getLast?_append, hlast, Option.some_or]
    · rw [parser, answer_orElse, Reply.orElse_of_isFailed h.1, hp]

theorem answer_congr {b b' : Bracketing} (h : b.alternatives = b'.alternatives) :
    b.parser.answer ctx s = b'.parser.answer ctx s := by
  have hfirst := (answer_first ctx s b).symm.trans (h ▸ answer_first ctx s b')
  have hfailed := isFailed_answer ctx s b
  rw [h, ← isFailed_answer] at hfailed
  cases hb : (b.parser.answer ctx s).isFailed with
  | true =>
    obtain ⟨p, hlast, hp⟩ := answer_of_isFailed ctx s hb
    obtain ⟨p', hlast', hp'⟩ := answer_of_isFailed ctx s (hfailed.symm.trans hb)
    rw [h, hlast'] at hlast
    cases hlast
    rw [hp, hp']
  | false =>
    rwa [Reply.orElse_of_not_isFailed hb,
      Reply.orElse_of_not_isFailed (hfailed.symm.trans hb)] at hfirst

theorem exists_framed (b : Bracketing) : ∃ tried untried, Tries ctx s b.alternatives tried untried ∧
    Event.Framed b.names s (eventsOn ctx s tried) (b.parser.step ctx s).events := by
  induction b with
  | single p =>
    have hevents : Event.Framed [] s (eventsOn ctx s [p]) (p.step ctx s).events := by
      rw [eventsOn_singleton]
      exact .refl _
    cases hp : (p.answer ctx s).isFailed with
    | true => exact ⟨[p], [], .failed hp .nil, hevents⟩
    | false => exact ⟨[p], [], .settled [] hp, hevents⟩
  | both left right ihl ihr =>
    obtain ⟨tried, untried, h, hleft⟩ := ihl
    obtain ⟨tried', untried', h', hright⟩ := ihr
    have hleft : Event.Framed (both left right).names s _ _ :=
      hleft.mono (List.subset_cons_of_subset _ (List.subset_append_left _ right.names))
    have hright : Event.Framed (both left right).names s _ _ :=
      hright.mono (List.subset_cons_of_subset _ (List.subset_append_right left.names _))
    have hframed {es : List Event} (hes : Event.Framed (both left right).names s es
        ((left.parser.step ctx).orElse (right.parser.step ctx) s).events) :
        Event.Framed (both left right).names s es ((both left right).parser.step ctx s).events :=
      Step.framed_logged ctx.debug List.mem_cons_self hes
    simp only [events_orElse] at hframed
    have hall := left.isFailed_answer ctx s
    cases hfailed : (left.parser.answer ctx s).isFailed with
    | true =>
      have hall := List.all_eq_true.1 (hall.symm.trans hfailed)
      refine ⟨_, untried', h'.append_of_failed hall, hframed ?_⟩
      rw [if_pos hfailed, eventsOn_append, ← h.eq_of_failed hall]
      exact hleft.append hright
    | false =>
      obtain ⟨p, hp, hsettled⟩ := List.all_eq_false.1 (hall.symm.trans hfailed)
      refine ⟨tried, _, h.append_of_settled hp (Bool.not_eq_true _ ▸ hsettled) _, hframed ?_⟩
      rw [if_neg (Bool.not_eq_true _ ▸ hfailed)]
      exact hleft

end Bracketing

theorem oneOf_eq (p : Parser) (ps : List Parser) :
    (Bracketing.fromLeft p ps).parser = oneOf p ps :=
  Bracketing.parser_foldl (.single p) ps

theorem alternatives_fromLeft (p : Parser) (ps : List Parser) :
    (Bracketing.fromLeft p ps).alternatives = p :: ps :=
  Bracketing.alternatives_foldl (.single p) ps

/-- A chain of alternatives answers the same however it is bracketed.  A list of them answers like
the chain, except that its reason for a failure is its own and that of the chain is the last one's.
A list within a list could as well be spread out.  Whatever is tried is tried on the same input, and
nothing is tried after a match or a fault. -/
theorem ordered_choice (ctx : Context) (s : Input) :
    (∀ p ps, ∀ b : Bracketing, b.alternatives = p :: ps →
      b.parser.answer ctx s = (oneOf p ps).answer ctx s) ∧
    (∀ p ps,
      (∀ v rest, (first (p :: ps)).answer ctx s = .matched v rest →
        (oneOf p ps).answer ctx s = .matched v rest) ∧
      (∀ fault, (first (p :: ps)).answer ctx s = .raised fault →
        (oneOf p ps).answer ctx s = .raised fault) ∧
      ∀ reason rest, (first (p :: ps)).answer ctx s = .failed reason rest → reason = "no match" ∧
        ∃ q reason' rest', (p :: ps).getLast? = some q ∧
          q.answer ctx s = .failed reason' rest' ∧
          (oneOf p ps).answer ctx s = .failed reason' rest') ∧
    (∀ ps qs rs, (first (ps ++ [first qs] ++ rs)).answer ctx s =
      (first (ps ++ qs ++ rs)).answer ctx s) ∧
    (∀ ps, ∃ tried untried, Tries ctx s ps tried untried ∧
      Event.Framed [(first ps).name] s (eventsOn ctx s tried) ((first ps).step ctx s).events) ∧
    ∀ b : Bracketing, ∃ tried untried, Tries ctx s b.alternatives tried untried ∧
      Event.Framed b.names s (eventsOn ctx s tried) (b.parser.step ctx s).events := by
  have hfirst (p : Parser) (ps : List Parser) : (first (p :: ps)).answer ctx s =
      ((oneOf p ps).answer ctx s).orElse (.failed "no match" s) := by
    rw [← alternatives_fromLeft, Bracketing.answer_first, oneOf_eq]
  refine ⟨fun p ps b h => ?_, fun p ps => ⟨fun v rest h => ?_, fun fault h => ?_,
    fun reason rest h => ⟨(first_failed ctx h).1, ?_⟩⟩, fun ps qs rs => ?_, fun ps => ?_,
    fun b => b.exists_framed ctx s⟩
  · rw [← oneOf_eq]
    exact Bracketing.answer_congr ctx s (h.trans (alternatives_fromLeft p ps).symm)
  · exact Reply.eq_of_orElse_failed ((hfirst p ps).symm.trans h) rfl
  · exact Reply.eq_of_orElse_failed ((hfirst p ps).symm.trans h) rfl
  · have hfailed : ((Bracketing.fromLeft p ps).parser.answer ctx s).isFailed = true := by
      have hr := congrArg Reply.isFailed ((hfirst p ps).symm.trans h)
      simpa [oneOf_eq] using hr
    obtain ⟨q, hlast, hq⟩ := Bracketing.answer_of_isFailed ctx s hfailed
    obtain ⟨reason', rest', hr⟩ := Reply.exists_of_isFailed hfailed
    rw [oneOf_eq] at hq hr
    rw [alternatives_fromLeft] at hlast
    exact ⟨q, reason', rest', hlast, hq.symm.trans hr, hr⟩
  · simp only [answer_first_append, answer_first_cons, answer_first_nil, Reply.orElse_assoc,
      Reply.orElse_failed]
  · obtain ⟨tried, untried, h, hevents⟩ := exists_tries ctx s ps
    refine ⟨tried, untried, h, Step.framed_logged ctx.debug List.mem_cons_self ?_⟩
    rw [← hevents]
    exact .refl _

end Parser

end ParserKit

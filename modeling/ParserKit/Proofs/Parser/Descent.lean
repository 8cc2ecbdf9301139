import Mathlib.Data.List.Chain
import ParserKit.Proofs.Language.Reading
import ParserKit.Proofs.Parser.Nesting
import ParserKit.Proofs.Parser.Sameness

/-! Rules which are entered within each other.  A run which records them answers like one which does
not, and tells at each moment which rules have been entered and not been left.  In a grammar which
enters its rule only after an opening bracket, these stand at inputs each of which is left of the
one before, so that there are never more of them than brackets. -/

namespace ParserKit

namespace Event

def pendingAfter (pending : List Input) : Event → List Input
  | tried _ s => s :: pending
  | matched .. => pending.tail
  | failed .. => pending.tail
  | entered _ => pending
  | received .. => pending
  | left _ => pending

def pending (start : List Input) (es : List Event) : List Input := es.foldl pendingAfter start

theorem pending_append (start : List Input) (es fs : List Event) :
    pending start (es ++ fs) = pending (pending start es) fs :=
  List.foldl_append

theorem pendingAfter_of_routine {e : Event} {routine : Routine} (h : e.routine? = some routine)
    (start : List Input) : pendingAfter start e = start := by
  cases e with
  | entered | received | left => rfl
  | tried | matched | failed => cases h

end Event

namespace Parser

def entering (rules : Rules) : Nat → Rule → Step Value
  | 0, _ => Step.raised .tooDeep
  | n + 1, key => Step.logged true "rule" ((rules key).step ⟨false, entering rules n⟩)

def recorded (rules : Rules) (n : Nat) (p : Parser) : Step Value := p.step ⟨false, entering rules n⟩

theorem recorded_same (rules : Rules) (debug : Bool) (n : Nat) (p : Parser) (s : Input) :
    (p.recorded rules n s).SameUpTo Eq (fun e => e.routine?.isSome) (p.run rules debug n s) := by
  have hkeep : ∀ e : Event, e.routine? = none → e.routine?.isSome = false := fun e he => by simp [he]
  have hlog : LogsComparable Eq (fun e => e.routine?.isSome) false debug := .inr hkeep
  induction n generalizing p s with
  | zero => exact (Alike.refl p).steps (.same hlog) (fun _ => .raised .tooDeep) s
  | succ n ih =>
    refine (Alike.refl p).steps (.same hlog) (fun key rest => ?_) s
    have h := ih (rules key) rest
    exact ⟨by rw [entering, Step.filter_logged hkeep]; exact h.events,
      by rw [entering, Step.reply_logged]; exact h.reply⟩

end Parser

/-- Attempts are made within each other at inputs which descend from a given one, and only a fault
leaves some of them pending. -/
structure Run.Descends {α : Type} (R : Input → Input → Prop) (s : Input) (r : Run α) : Prop where
  chained : ∀ start es, es <+: r.events →
    ∃ inner, Event.pending start es = inner ++ start ∧ (inner ++ [s]).IsChain R
  settled : (∀ fault, r.reply ≠ .raised fault) → ∀ start, Event.pending start r.events = start

namespace Run.Descends

variable {α β : Type} {R : Input → Input → Prop} {s : Input} {r : Run α}

theorem silent (reply : Reply α) : (Run.silent reply).Descends R s where
  chained start es hes := by
    obtain rfl := List.prefix_nil.1 hes
    exact ⟨[], rfl, .singleton s⟩
  settled _ _ := rfl

theorem emit (h : r.Descends R s) {first : List Event}
    (hchained : ∀ start es, es <+: first →
      ∃ inner, Event.pending start es = inner ++ start ∧ (inner ++ [s]).IsChain R)
    (hsettled : ∀ start, Event.pending start first = start) : (r.emit first).Descends R s where
  chained start es hes := by
    rcases List.prefix_or_prefix_of_prefix hes (List.prefix_append first r.events) with hle | hle
    · exact hchained start es hle
    · obtain ⟨es', rfl⟩ := hle
      rw [Event.pending_append, hsettled]
      exact h.chained start es' ((List.prefix_append_right_inj first).1 hes)
  settled hr start := by
    rw [events_emit, Event.pending_append, hsettled]
    exact h.settled hr start

theorem emit_routine (h : r.Descends R s) {e : Event} {routine : Routine}
    (he : e.routine? = some routine) : (r.emit [e]).Descends R s := by
  have hstart (start : List Input) : Event.pending start [e] = start :=
    Event.pendingAfter_of_routine he start
  refine h.emit (fun start es hes => ⟨[], ?_, .singleton s⟩) hstart
  rcases List.prefix_cons_iff.1 hes with rfl | ⟨es', rfl, hes'⟩
  · rfl
  · obtain rfl := List.prefix_nil.1 hes'
    exact hstart start

theorem last {e : Event} {routine : Routine} (he : e.routine? = some routine) (reply : Reply α) :
    Run.Descends R s ⟨[e], reply⟩ := by
  rw [← emit_silent]
  exact (silent reply).emit_routine he

theorem prefix_closing {name : String} {es fs : List Event} {reply : Reply Value}
    (h : es <+: fs ++ Step.closing name reply) :
    es <+: fs ∨ es = fs ++ Step.closing name reply ∧ ∀ fault, reply ≠ .raised fault := by
  cases reply with
  | matched value rest =>
    exact (List.prefix_concat_iff.1 h).symm.imp_right fun h => ⟨h, fun _ hr => by cases hr⟩
  | failed reason rest =>
    exact (List.prefix_concat_iff.1 h).symm.imp_right fun h => ⟨h, fun _ hr => by cases hr⟩
  | raised fault => exact .inl (by rwa [Step.closing, List.append_nil] at h)

theorem logged {name : String} {p : Step Value} {rest : Input} (h : (p rest).Descends R rest)
    (hrest : R rest s) : (Step.logged true name p rest).Descends R s := by
  have hevents : (Step.logged true name p rest).events =
      .tried name rest :: ((p rest).events ++ Step.closing name (p rest).reply) := rfl
  have settled (hr : ∀ fault, (p rest).reply ≠ .raised fault) (start : List Input) :
      Event.pending (rest :: start) ((p rest).events ++ Step.closing name (p rest).reply) =
        start := by
    rw [Event.pending_append, h.settled hr]
    cases hreply : (p rest).reply with
    | matched value rest' => rfl
    | failed reason rest' => rfl
    | raised fault => exact absurd hreply (hr fault)
  refine ⟨fun start es hes => ?_, fun hr start => ?_⟩
  · rw [hevents] at hes
    rcases List.prefix_cons_iff.1 hes with rfl | ⟨es', rfl, hes'⟩
    · exact ⟨[], rfl, .singleton s⟩
    rcases prefix_closing hes' with hle | ⟨rfl, hr⟩
    · -- The attempt itself is still pending, below all that are made in it.
      obtain ⟨inner, hpending, hchain⟩ := h.chained (rest :: start) es' hle
      refine ⟨inner ++ [rest], ?_, ?_⟩
      · rw [List.append_assoc]
        exact hpending
      · rw [List.append_assoc]
        exact List.isChain_split.2 ⟨hchain, List.isChain_pair.2 hrest⟩
    · exact ⟨[], settled hr start, .singleton s⟩
  · rw [Step.reply_logged] at hr
    exact settled hr start

end Run.Descends

def Run.DescendsAs {α : Type} (R : Input → Input → Prop) (s : Input) (r r' : Run α) : Prop :=
  (∀ fault, r'.reply ≠ .raised fault) → r.Descends R s ∧ r.reply.Agree r'.reply

namespace Run.DescendsAs

variable {α β : Type} {R : Input → Input → Prop} {s : Input} {r r' : Run α}

theorem follow {f f' : α → Input → Run β} {g g' : String → Input → Run β}
    (h : r.DescendsAs R s r') (hf : ∀ value rest, (f value rest).DescendsAs R s (f' value rest))
    (hg : ∀ reason rest rest', (g reason rest).DescendsAs R s (g' reason rest')) :
    (r.follow f g).DescendsAs R s (r'.follow f' g') := by
  obtain ⟨es, reply⟩ := r
  obtain ⟨es', reply'⟩ := r'
  intro hr
  cases reply' with
  | raised fault => exact absurd rfl (hr fault)
  | matched value rest =>
    obtain ⟨hd, ha⟩ := h fun _ hr => by cases hr
    cases ha with
    | matched =>
      obtain ⟨hfd, hfa⟩ := hf value rest hr
      exact ⟨hfd.emit hd.chained (hd.settled fun _ hr => by cases hr), hfa⟩
  | failed reason rest =>
    obtain ⟨hd, ha⟩ := h fun _ hr => by cases hr
    cases ha with
    | failed _ rest' =>
      obtain ⟨hgd, hga⟩ := hg reason rest' rest hr
      exact ⟨hgd.emit hd.chained (hd.settled fun _ hr => by cases hr), hga⟩

theorem emit_routine (h : r.DescendsAs R s r') {e : Event} {routine : Routine}
    (he : e.routine? = some routine) : (r.emit [e]).DescendsAs R s (r'.emit [e]) :=
  fun hr => ⟨(h hr).1.emit_routine he, (h hr).2⟩

theorem last {e : Event} {routine : Routine} (he : e.routine? = some routine) (reply : Reply α) :
    Run.DescendsAs R s ⟨[e], reply⟩ ⟨[e], reply⟩ :=
  fun _ => ⟨.last he reply, .refl reply⟩

end Run.DescendsAs

def Likeness.descent (R : Input → Input → Prop) (s : Input) : Likeness Eq false false where
  Rel := Run.DescendsAs R s
  Within _ := Run.DescendsAs R s
  silent h _ := ⟨.silent _, h.agree fun _ _ h => h⟩
  follow h hf hg := h.follow hf fun reason rest rest' => hg (.same reason) rest rest'
  logged _ h := h
  entered {routine _ _} h := h.emit_routine (e := .entered routine) rfl
  awaited {routine _ _ _ _} h hf _ := h.follow
    (fun value rest => (hf value rest).emit_routine (e := .received routine value) rfl)
    fun _ _ _ => .last (e := .left routine) rfl _
  left {routine _ _} h := h.emit_routine (e := .left routine) rfl

theorem Rule.length_le_depth {key : Rule} {inner : List Input} {s : Input}
    (h : (inner ++ [s]).IsChain key.Below) : inner.length ≤ key.depth s := by
  have bound (inner : List Input) (rest : Input) (h : (rest :: inner ++ [s]).IsChain key.Below) :
      inner.length + 1 + key.depth rest ≤ key.depth s := by
    induction inner generalizing rest with
    | nil =>
      have hlt := (List.isChain_pair.1 h).depth_lt
      rw [List.length_nil]
      omega
    | cons next inner ih =>
      have hlt := (List.isChain_cons_cons.1 h).1.depth_lt
      have hle := ih next (List.isChain_cons_cons.1 h).2
      rw [List.length_cons]
      omega
  cases inner with
  | nil => exact Nat.zero_le _
  | cons rest inner =>
    have hle := bound inner rest h
    rw [List.length_cons]
    omega

section

variable {α : Type} {L : Language α} {code : α → Value} {More : Input → Prop} {key : Rule}
  {s : Input}

theorem Reads.of_agree {r r' : Reply Value} (h : Reads L code More s r) (ha : r'.Agree r) :
    Reads L code More s r' := by
  cases ha with
  | matched value rest => exact h
  | failed reason rest rest' => exact .failed h.not_begins
  | raised fault => exact h

namespace Parser

theorem step_descends {p : Parser}
    (h : ∀ ctx, Within (Reads L code More) key ctx s → Reads L code More s (p.answer ctx s))
    {enter : Rule → Step Value}
    (henter : ∀ rest, key.Below rest s →
      (enter key rest).Descends key.Below s ∧ Reads L code More rest (enter key rest).reply) :
    (p.step ⟨false, enter⟩ s).Descends key.Below s ∧
      Reads L code More s (p.step ⟨false, enter⟩ s).reply := by
  classical
  -- To read the language, the parser must not run into the faults which these rules end in.
  let guarded : Rule → Step Value := fun k rest =>
    if k = key ∧ key.Below rest s then enter k rest else Step.raised .tooDeep rest
  have below {rest : Input} (hb : key.Below rest s) : guarded key rest = enter key rest :=
    if_pos ⟨rfl, hb⟩
  have elsewhere {k : Rule} {rest : Input} (hk : ¬ (k = key ∧ key.Below rest s)) :
      guarded k rest = Step.raised .tooDeep rest := if_neg hk
  have hreads : Reads L code More s (p.answer ⟨false, guarded⟩ s) := by
    refine h _ fun u rest hs hu => ?_
    have hb : key.Below rest s := ⟨u, hs, hu⟩
    have hrest := (henter rest hb).2
    rwa [← below hb] at hrest
  have hsteps : (p.step ⟨false, enter⟩ s).DescendsAs key.Below s (p.step ⟨false, guarded⟩ s) := by
    refine (Alike.refl p).steps (.descent key.Below s) (fun k rest hr => ?_) s
    by_cases hk : k = key ∧ key.Below rest s
    · obtain ⟨rfl, hb⟩ := hk
      rw [below hb]
      exact ⟨(henter rest hb).1, .refl _⟩
    · rw [elsewhere hk] at hr
      exact absurd rfl (hr .tooDeep)
  obtain ⟨hd, ha⟩ := hsteps fun fault hr => by
    have hr' : p.answer ⟨false, guarded⟩ s = .raised fault := hr
    rw [hr'] at hreads
    cases hreads
  exact ⟨hd, hreads.of_agree ha⟩

theorem recorded_descends
    (h : ∀ ctx s, Within (Reads L code More) key ctx s →
      Reads L code More s ((Library.rules key).answer ctx s))
    {n : Nat} (hn : key.depth s ≤ n) :
    ((Library.rules key).recorded Library.rules n s).Descends key.Below s ∧
      Reads L code More s ((Library.rules key).recorded Library.rules n s).reply := by
  induction n generalizing s with
  | zero =>
    refine step_descends (fun ctx => h ctx s) fun rest hb => ?_
    have hlt := hb.depth_lt
    omega
  | succ n ih =>
    refine step_descends (fun ctx => h ctx s) fun rest hb => ?_
    have hlt := hb.depth_lt
    obtain ⟨hd, hr⟩ := ih (s := rest) (by omega)
    rw [entering, Step.reply_logged]
    exact ⟨hd.logged hb, hr⟩

end Parser

end

end ParserKit

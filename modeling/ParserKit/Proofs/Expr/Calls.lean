import ParserKit.Proofs.Expr.Traversal

namespace ParserKit

def Call.moment : Call → Moment
  | .enter node => .enter node
  | .process node _ => .process node

namespace Journal

variable {α β : Type}

theorem result_andThen (j : Journal α) (next : α → Journal β) :
    (j.andThen next).result = j.result.bind fun value => (next value).result := by
  obtain ⟨calls, _ | value⟩ := j <;> rfl

theorem ok_andThen_fault (calls : List Call) (value : α) (f : Fault) :
    (⟨calls, .ok value⟩ : Journal α).andThen (fun _ => (fault f : Journal β)) =
      ⟨calls, .error f⟩ := by
  simp [andThen, fault]

theorem mem_calls_andThen {j : Journal α} {next : α → Journal β} {c : Call}
    (h : c ∈ (j.andThen next).calls) :
    c ∈ j.calls ∨ ∃ value, j.result = .ok value ∧ c ∈ (next value).calls := by
  obtain ⟨calls, result⟩ := j
  cases result with
  | error fault => exact .inl h
  | ok value => exact (List.mem_append.1 h).imp_right fun h => ⟨value, rfl, h⟩

end Journal

namespace Transformer

def handler (t : Transformer) (node : Expr) : List Value → Except Fault Value :=
  (t.method node.kind).getD t.fallback node

def outcome (t : Transformer) : Call → Except Fault Unit
  | .enter node => ((t.enter node.kind).map (· node)).getD (.ok ())
  | .process node children => (t.handler node children).map fun _ => ()

def takesPart (t : Transformer) : Moment → Bool
  | .enter node => (t.enter node.kind).isSome
  | .process _ => true

def visits (t : Transformer) (e : Expr) : List Visit :=
  e.traversal.filter fun v => t.takesPart v.moment

def schedule (t : Transformer) (e : Expr) : List Moment := e.moments.filter t.takesPart

def entrance (t : Transformer) (node : Expr) : List Call :=
  if (t.enter node.kind).isSome then [.enter node] else []

/-- What was recorded of a transformation keeps to a plan.  Either all of it was done, or a call has
raised, or a node has not told its children, which is found out between its entry and its
processing; nothing comes after a fault. -/
inductive Follows (t : Transformer) {α : Type} : List Moment → Journal α → Prop
  | completed {l : List Call} (value : α) : (∀ c ∈ l, t.outcome c = .ok ()) →
      Follows t (l.map Call.moment) ⟨l, .ok value⟩
  | raised {l : List Call} {c : Call} {fault : Fault} (rest : List Moment) :
      (∀ c ∈ l, t.outcome c = .ok ()) → t.outcome c = .error fault →
        Follows t (l.map Call.moment ++ c.moment :: rest) ⟨l ++ [c], .error fault⟩
  | childless {l : List Call} (kind : String) (rest : List Moment) :
      (∀ c ∈ l ++ t.entrance (.custom kind), t.outcome c = .ok ()) →
        Follows t ((l ++ t.entrance (.custom kind)).map Call.moment ++
          .process (.custom kind) :: rest)
          ⟨l ++ t.entrance (.custom kind), .error (.noChildren kind)⟩

namespace Follows

variable {t : Transformer} {α β : Type} {plan plan' : List Moment}

theorem pure (value : α) : t.Follows [] (Journal.pure value) :=
  .completed (l := []) value (List.forall_mem_nil _)

theorem call {c : Call} {result : Except Fault α}
    (h : t.outcome c = result.map fun _ => ()) : t.Follows [c.moment] (.call c result) := by
  cases result with
  | ok value => exact .completed (l := [c]) value (List.forall_mem_singleton.2 h)
  | error fault => exact .raised (l := []) [] (List.forall_mem_nil _) h

theorem after {calls : List Call} (hcalls : ∀ c ∈ calls, t.outcome c = .ok ()) {j : Journal α}
    (h : t.Follows plan j) :
    t.Follows (calls.map Call.moment ++ plan) ⟨calls ++ j.calls, j.result⟩ := by
  cases h with
  | completed value h =>
    rw [← List.map_append]
    exact .completed value (List.forall_mem_append.2 ⟨hcalls, h⟩)
  | raised rest h hc =>
    rw [← List.append_assoc, ← List.append_assoc, ← List.map_append]
    exact .raised rest (List.forall_mem_append.2 ⟨hcalls, h⟩) hc
  | childless kind rest h =>
    rw [← List.append_assoc, ← List.map_append, ← List.append_assoc]
    refine .childless kind rest ?_
    rw [List.append_assoc]
    exact List.forall_mem_append.2 ⟨hcalls, h⟩

theorem andThen {j : Journal α} {next : α → Journal β} (h : t.Follows plan j)
    (hn : ∀ value, t.Follows plan' (next value)) : t.Follows (plan ++ plan') (j.andThen next) := by
  cases h with
  | completed value h => exact (hn value).after h
  | raised rest h hc =>
    rw [List.append_assoc, List.cons_append]
    exact .raised (rest ++ plan') h hc
  | childless kind rest h =>
    rw [List.append_assoc, List.cons_append]
    exact .childless kind (rest ++ plan') h

end Follows

section

variable (t : Transformer)

def below (e : Expr) : Journal (List Value) :=
  match e.children with
  | .ok es => transformAll t es
  | .error fault => .fault fault

theorem transform_eq (e : Expr) : t.transform e = t.visit e (t.below e) := by
  cases e with
  | binary op l r =>
    rw [transform, below]
    simp only [Expr.children, transformAll, Journal.andThen_assoc, Journal.pure_andThen]
  | _ => rfl

theorem map_visits (e : Expr) : (t.visits e).map Visit.moment = t.schedule e := by
  rw [visits, schedule, Expr.moments, List.filter_map]
  rfl

theorem schedule_eq (e : Expr) :
    t.schedule e =
      (t.entrance e).map Call.moment ++ (e.branches.flatMap t.schedule ++ [.process e]) := by
  rw [schedule, Expr.moments_eq, List.filter_cons, List.filter_append, List.filter_flatMap, entrance,
    takesPart]
  cases (t.enter e.kind).isSome <;> rfl

theorem entering_cases (e : Expr) :
    (t.entering e = ⟨t.entrance e, .ok ()⟩ ∧ ∀ c ∈ t.entrance e, t.outcome c = .ok ()) ∨
      ∃ fault, t.entering e = ⟨[.enter e], .error fault⟩ ∧ t.entrance e = [.enter e] ∧
        t.outcome (.enter e) = .error fault := by
  rw [entering, entrance, outcome]
  cases h : t.enter e.kind with
  | none => exact .inl ⟨rfl, List.forall_mem_nil _⟩
  | some hook =>
    have houtcome : t.outcome (.enter e) = hook e := by rw [outcome, h]; rfl
    have hcall : t.entering e = ⟨[.enter e], hook e⟩ := by rw [entering, h]; rfl
    rw [entering, h] at hcall
    cases hr : hook e with
    | ok _ => exact .inl ⟨hr ▸ hcall, List.forall_mem_singleton.2 (houtcome.trans hr)⟩
    | error fault => exact .inr ⟨fault, hr ▸ hcall, rfl, hr⟩

theorem entering_follows (e : Expr) :
    t.Follows ((t.entrance e).map Call.moment) (t.entering e) := by
  obtain ⟨h, hok⟩ | ⟨fault, h, hcall, hf⟩ := t.entering_cases e
  · rw [h]
    exact .completed () hok
  · rw [h, hcall]
    exact .raised (l := []) [] (List.forall_mem_nil _) hf

theorem processing_follows (e : Expr) (children : List Value) :
    t.Follows [.process e] (t.processing e children) :=
  .call (c := .process e children) rfl

theorem transformAll_follows {es : List Expr}
    (h : ∀ e ∈ es, t.Follows (t.schedule e) (t.transform e)) :
    t.Follows (es.flatMap t.schedule) (t.transformAll es) := by
  induction es with
  | nil => exact .pure []
  | cons e es ih =>
    rw [List.forall_mem_cons] at h
    rw [List.flatMap_cons, transformAll]
    refine h.1.andThen fun v => ?_
    have := (ih h.2).andThen fun vs => Follows.pure (t := t) (v :: vs)
    rwa [List.append_nil] at this

theorem entered_schedule (e : Expr) : (t.schedule e).filterMap Moment.entered? =
    e.preorder.filter fun node => (t.enter node.kind).isSome := by
  rw [← Expr.entered_moments, schedule, List.filterMap_filter, List.filter_filterMap]
  refine List.filterMap_congr fun m _ => ?_
  cases m with
  | enter node => rw [takesPart, Moment.entered?, Option.filter_some]
  | process node => rfl

theorem processed_schedule (e : Expr) :
    (t.schedule e).filterMap Moment.processed? = e.postorder := by
  rw [← Expr.processed_moments, schedule, List.filterMap_filter]
  refine List.filterMap_congr fun m _ => ?_
  cases m with
  | enter node => rw [takesPart]; split <;> rfl
  | process node => rfl

theorem childless_follows (kind : String) :
    t.Follows ((t.entrance (.custom kind)).map Call.moment ++ [.process (.custom kind)])
      (t.transform (.custom kind)) := by
  rw [transform, visit, Journal.fault_andThen]
  obtain ⟨h, hok⟩ | ⟨fault, h, hcall, hf⟩ := t.entering_cases (.custom kind)
  · rw [h, Journal.ok_andThen_fault]
    exact .childless (l := []) kind [] hok
  · rw [h, hcall]
    exact .raised (l := []) _ (List.forall_mem_nil _) hf

theorem transform_follows (e : Expr) : t.Follows (t.schedule e) (t.transform e) := by
  induction e using Expr.induction_branches with
  | _ e ih =>
    rw [schedule_eq]
    cases hc : e.children with
    | ok es =>
      rw [transform_eq, visit, below, hc]
      rw [Expr.branches_of_children hc] at ih ⊢
      exact (t.entering_follows e).andThen fun _ =>
        (t.transformAll_follows ih).andThen (t.processing_follows e)
    | error fault =>
      cases e with
      | custom kind => exact t.childless_follows kind
      | _ => cases hc

/-- A node was processed with the values of its children, in their order, and this made its own
value. -/
structure Handled (t : Transformer) (node : Expr) (values : List Value) : Prop where
  children : ∃ es, node.children = .ok es ∧
    List.Forall₂ (fun child value => (t.transform child).result = .ok value) es values
  result : (t.transform node).result = t.handler node values

theorem result_transformAll {es : List Expr} {values : List Value}
    (h : (t.transformAll es).result = .ok values) :
    List.Forall₂ (fun child value => (t.transform child).result = .ok value) es values := by
  induction es generalizing values with
  | nil =>
    cases h
    exact .nil
  | cons e es ih =>
    rw [transformAll, Journal.result_andThen] at h
    cases he : (t.transform e).result with
    | error fault => rw [he] at h; cases h
    | ok value =>
      rw [he, Except.bind, Journal.result_andThen] at h
      cases hes : (t.transformAll es).result with
      | error fault => rw [hes] at h; cases h
      | ok rest =>
        rw [hes] at h
        cases h
        exact .cons he (ih hes)

theorem mem_calls_transformAll {es : List Expr} {c : Call} (h : c ∈ (t.transformAll es).calls) :
    ∃ e ∈ es, c ∈ (t.transform e).calls := by
  induction es with
  | nil => cases h
  | cons e es ih =>
    rw [List.exists_mem_cons_iff]
    obtain h | ⟨_, _, h⟩ := Journal.mem_calls_andThen h
    · exact .inl h
    · obtain h | ⟨_, _, h⟩ := Journal.mem_calls_andThen h
      · exact .inr (ih h)
      · cases h

theorem not_process_mem_entering (e node : Expr) (values : List Value) :
    .process node values ∉ (t.entering e).calls := by
  obtain ⟨h, _⟩ | ⟨_, h, _⟩ := t.entering_cases e
  · rw [h, entrance]
    split <;> simp
  · simp [h]

theorem handled_of_mem {e node : Expr} {values : List Value}
    (h : .process node values ∈ (t.transform e).calls) : t.Handled node values := by
  induction e using Expr.induction_branches with
  | _ e ih =>
    rw [transform_eq, visit] at h
    obtain h | ⟨_, hentering, h⟩ := Journal.mem_calls_andThen h
    · exact absurd h (t.not_process_mem_entering e node values)
    cases hc : e.children with
    | error fault =>
      rw [below, hc] at h
      cases h
    | ok es =>
      rw [below, hc] at h
      obtain h | ⟨values', hvalues, h⟩ := Journal.mem_calls_andThen h
      · obtain ⟨child, hchild, h⟩ := t.mem_calls_transformAll h
        exact ih child (Expr.branches_of_children hc ▸ hchild) h
      · obtain ⟨rfl, rfl⟩ := Call.process.inj (List.mem_singleton.1 h)
        refine ⟨⟨es, hc, t.result_transformAll hvalues⟩, ?_⟩
        rw [transform_eq, visit, below, hc, Journal.result_andThen, hentering, Except.bind,
          Journal.result_andThen]
        dsimp only
        rw [hvalues]
        rfl

/-- The calls on entry are in pre-order and those which process nodes in post-order; a node is
entered before all calls for the nodes below it and processed after them, with the values of its
children.  A call which raises is the last one, and so is the entry of a node which does not tell
its children.  Otherwise there is a call for each visit. -/
theorem calls_in_order (e : Expr) :
    (t.visits e).filterMap (fun v => v.moment.entered?) =
        e.preorder.filter (fun node => (t.enter node.kind).isSome) ∧
      (t.visits e).filterMap (fun v => v.moment.processed?) = e.postorder ∧
      (∀ v ∈ t.visits e, e.at? v.place = some v.moment.node) ∧
      (t.visits e).Pairwise Visit.InOrder ∧
      t.Follows ((t.visits e).map Visit.moment) (t.transform e) ∧
      (∀ node values, .process node values ∈ (t.transform e).calls → t.Handled node values) ∧
      ((∀ c, t.outcome c = .ok ()) → (∀ node ∈ e.postorder, ∀ kind, node ≠ .custom kind) →
        (t.transform e).calls.map Call.moment = (t.visits e).map Visit.moment ∧
          ∃ value, (t.transform e).result = .ok value) := by
  have hfollows := t.transform_follows e
  refine ⟨?_, ?_, fun v hv => ?_, ?_, ?_, fun _ _ => t.handled_of_mem, fun hok hkinds => ?_⟩
  · rw [← entered_schedule, ← map_visits, List.filterMap_map]
    rfl
  · rw [← t.processed_schedule, ← map_visits, List.filterMap_map]
    rfl
  · obtain ⟨below, hplace, hat⟩ := Expr.at?_of_mem_traversalAt (List.mem_of_mem_filter hv)
    rw [hplace]
    exact hat
  · exact (Expr.pairwise_traversalAt [] e).filter _
  · rw [map_visits]
    exact hfollows
  · rw [map_visits]
    rw [← t.processed_schedule] at hkinds
    generalize t.schedule e = plan, t.transform e = run at hfollows hkinds
    cases hfollows with
    | completed value _ => exact ⟨rfl, value, rfl⟩
    | raised _ _ hc => rw [hok] at hc; cases hc
    | childless kind rest _ =>
      refine absurd rfl (hkinds (.custom kind) ?_ kind)
      simp [Moment.processed?]

theorem calls_in_order_sum :
    let hook (kind : String) := if kind = "reference" then some fun _ => Except.ok () else none
    let t : Transformer := { plain with enter := hook }
    let e : Expr := .call "SUM" [.number 1, .reference "A1"]
    (t.transform e).calls.map Call.moment =
        [.process (.number 1), .enter (.reference "A1"), .process (.reference "A1"), .process e] ∧
      ∃ value, (t.transform e).result = .ok value := by
  intro hook t e
  have hok (c : Call) : t.outcome c = .ok () := by
    cases c with
    | process node values => rfl
    | enter node =>
      show ((hook node.kind).map (· node)).getD (.ok ()) = .ok ()
      rw [show hook = fun kind => if kind = "reference" then some fun _ => .ok () else none from rfl]
      dsimp only
      split <;> rfl
  have hkinds : ∀ node ∈ e.postorder, ∀ kind, node ≠ .custom kind := by
    show ∀ node ∈ [.number 1, .reference "A1", e], _
    simp [e]
  exact (t.calls_in_order e).2.2.2.2.2.2 hok hkinds

end

end Transformer

end ParserKit

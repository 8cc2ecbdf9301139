import Mathlib.Data.List.Enum
import Mathlib.Data.List.Sigma
import ParserKit.Expr.Transformer

namespace ParserKit

namespace Expr

def branches : Expr → List Expr
  | number _ => []
  | binary _ left right => [left, right]
  | call _ args => args
  | reference _ => []
  | custom _ => []

theorem branches_of_children {e : Expr} {es : List Expr} (h : e.children = .ok es) :
    e.branches = es := by
  cases e <;> cases h <;> rfl

section

variable {α : Type}

mutual
def fold (f : Expr → List α → α) : Expr → α
  | number x => f (number x) []
  | binary op l r => f (binary op l r) [fold f l, fold f r]
  | call name args => f (call name args) (foldAll f args)
  | reference address => f (reference address) []
  | custom kind => f (custom kind) []

def foldAll (f : Expr → List α → α) : List Expr → List α
  | [] => []
  | e :: es => fold f e :: foldAll f es
end

theorem foldAll_eq_map (f : Expr → List α → α) (es : List Expr) : foldAll f es = es.map (fold f) := by
  induction es with
  | nil => rfl
  | cons e es ih => rw [foldAll, ih, List.map_cons]

theorem fold_eq (f : Expr → List α → α) (e : Expr) : e.fold f = f e (e.branches.map (fold f)) := by
  cases e with
  | call name args => rw [fold, foldAll_eq_map, branches]
  | _ => rfl

end

mutual
theorem induction_branches {P : Expr → Prop} (h : ∀ e, (∀ c ∈ e.branches, P c) → P e) :
    (e : Expr) → P e
  | .number _ => h _ (List.forall_mem_nil P)
  | .binary _ l r => h _ <| List.forall_mem_cons.2 ⟨induction_branches h l,
      List.forall_mem_singleton.2 (induction_branches h r)⟩
  | .call _ args => h _ (induction_all h args)
  | .reference _ => h _ (List.forall_mem_nil P)
  | .custom _ => h _ (List.forall_mem_nil P)

theorem induction_all {P : Expr → Prop} (h : ∀ e, (∀ c ∈ e.branches, P c) → P e) :
    (es : List Expr) → ∀ c ∈ es, P c
  | [] => List.forall_mem_nil P
  | e :: es => List.forall_mem_cons.2 ⟨induction_branches h e, induction_all h es⟩
end

def preorder : Expr → List Expr := fold fun e parts => e :: parts.flatten

def postorder : Expr → List Expr := fold fun e parts => parts.flatten ++ [e]

theorem preorder_eq (e : Expr) : e.preorder = e :: e.branches.flatMap preorder := by
  rw [preorder, fold_eq, List.flatMap_def]

theorem postorder_eq (e : Expr) : e.postorder = e.branches.flatMap postorder ++ [e] := by
  rw [postorder, fold_eq, List.flatMap_def]

def at? (e : Expr) : List Nat → Option Expr
  | [] => some e
  | i :: place => e.branches[i]?.bind fun c => c.at? place

end Expr

inductive Moment
  | enter (node : Expr)
  | process (node : Expr)

namespace Moment

def node : Moment → Expr
  | enter node => node
  | process node => node

def entered? : Moment → Option Expr
  | enter node => some node
  | process _ => none

def processed? : Moment → Option Expr
  | enter _ => none
  | process node => some node

end Moment

structure Visit where
  place : List Nat
  moment : Moment

/-- Of two visits of a traversal, the earlier one enters its node if the later one is of that node or
of one below it, and the later one processes its node if the earlier one is of that node or of one
below it. -/
def Visit.InOrder (v w : Visit) : Prop :=
  (v.place <+: w.place → v.moment.processed? = none) ∧
    (w.place <+: v.place → w.moment.entered? = none)

namespace Expr

def around (e : Expr) (parts : List (List Nat → List Visit)) (place : List Nat) : List Visit :=
  ⟨place, .enter e⟩ ::
    (parts.zipIdx.flatMap (fun (part, i) => part (place ++ [i])) ++ [⟨place, .process e⟩])

def traversalAt (place : List Nat) (e : Expr) : List Visit := e.fold around place

def traversal (e : Expr) : List Visit := e.traversalAt []

theorem traversalAt_eq (place : List Nat) (e : Expr) :
    e.traversalAt place = ⟨place, .enter e⟩ ::
      (e.branches.zipIdx.flatMap (fun (c, i) => c.traversalAt (place ++ [i])) ++
        [⟨place, .process e⟩]) := by
  rw [traversalAt, fold_eq, around, List.zipIdx_map, List.flatMap_map]
  rfl

theorem flatMap_zipIdx {β : Type} {f : Expr × Nat → List β} {g : Expr → List β} {es : List Expr}
    (h : ∀ c ∈ es, ∀ i, f (c, i) = g c) : es.zipIdx.flatMap f = es.flatMap g := by
  calc es.zipIdx.flatMap f
      = es.zipIdx.flatMap fun x => g x.1 :=
        List.flatMap_congr fun x hx => h x.1 (List.fst_mem_of_mem_zipIdx hx) x.2
    _ = (es.zipIdx.map Prod.fst).flatMap g := (List.flatMap_map ..).symm
    _ = es.flatMap g := by rw [List.zipIdx_map_fst]

def moments (e : Expr) : List Moment := e.traversal.map Visit.moment

theorem moments_traversalAt (place : List Nat) (e : Expr) :
    (e.traversalAt place).map Visit.moment = e.moments := by
  rw [moments, traversal]
  induction e using induction_branches generalizing place with
  | _ e ih =>
    rw [traversalAt_eq, traversalAt_eq []]
    simp only [List.map_cons, List.map_append, List.map_flatMap, List.map_nil]
    rw [flatMap_zipIdx fun c hc i => ih c hc (place ++ [i]),
      flatMap_zipIdx fun c hc i => ih c hc ([] ++ [i])]

theorem moments_eq (e : Expr) :
    e.moments = .enter e :: (e.branches.flatMap moments ++ [.process e]) := by
  rw [moments, traversal, traversalAt_eq]
  simp only [List.map_cons, List.map_append, List.map_flatMap, List.map_nil]
  rw [flatMap_zipIdx fun c _ i => moments_traversalAt ([] ++ [i]) c]

theorem entered_moments (e : Expr) : e.moments.filterMap Moment.entered? = e.preorder := by
  induction e using induction_branches with
  | _ e ih =>
    rw [moments_eq, preorder_eq]
    simp only [List.filterMap_cons, List.filterMap_append, List.filterMap_flatMap,
      Moment.entered?, List.filterMap_nil, List.append_nil]
    rw [List.flatMap_congr ih]

theorem processed_moments (e : Expr) : e.moments.filterMap Moment.processed? = e.postorder := by
  induction e using induction_branches with
  | _ e ih =>
    rw [moments_eq, postorder_eq]
    simp only [List.filterMap_cons, List.filterMap_append, List.filterMap_flatMap,
      Moment.processed?, List.filterMap_nil]
    rw [List.flatMap_congr ih]

theorem at?_of_mem_traversalAt {place : List Nat} {e : Expr} {v : Visit}
    (hv : v ∈ e.traversalAt place) :
    ∃ below, v.place = place ++ below ∧ e.at? below = some v.moment.node := by
  induction e using induction_branches generalizing place with
  | _ e ih =>
    rw [traversalAt_eq, List.mem_cons, List.mem_append, List.mem_flatMap, List.mem_singleton] at hv
    obtain rfl | ⟨⟨c, i⟩, hc, hv⟩ | rfl := hv
    · exact ⟨[], (List.append_nil place).symm, rfl⟩
    · obtain ⟨below, hplace, hat⟩ := ih c (List.fst_mem_of_mem_zipIdx hc) hv
      refine ⟨i :: below, by rw [hplace, List.append_assoc, List.singleton_append], ?_⟩
      rw [at?, List.mem_zipIdx_iff_getElem?.1 hc]
      exact hat
    · exact ⟨[], (List.append_nil place).symm, rfl⟩

theorem turn_of_mem_branch {place : List Nat} {es : List Expr} {v : Visit}
    (hv : v ∈ es.zipIdx.flatMap fun (c, i) => c.traversalAt (place ++ [i])) :
    ∃ i below, v.place = place ++ i :: below := by
  obtain ⟨⟨c, i⟩, _, hv⟩ := List.mem_flatMap.1 hv
  obtain ⟨below, hplace, _⟩ := at?_of_mem_traversalAt hv
  exact ⟨i, below, by rw [hplace, List.append_assoc, List.singleton_append]⟩

theorem turn_not_above (place : List Nat) (i : Nat) (below : List Nat) :
    ¬ place ++ i :: below <+: place := by
  intro h
  have := h.length_le
  rw [List.length_append, List.length_cons] at this
  omega

theorem turn_eq_of_above {place below below' : List Nat} {i j : Nat}
    (h : place ++ i :: below <+: place ++ j :: below') : i = j :=
  (List.cons_prefix_cons.1 ((List.prefix_append_right_inj place).1 h)).1

theorem inOrder_of_turns {place below below' : List Nat} {i j : Nat} {v w : Visit}
    (hv : v.place = place ++ i :: below) (hw : w.place = place ++ j :: below') (h : i ≠ j) :
    v.InOrder w := by
  rw [Visit.InOrder, hv, hw]
  exact ⟨fun hp => absurd (turn_eq_of_above hp) h, fun hp => absurd (turn_eq_of_above hp).symm h⟩

theorem pairwise_traversalAt (place : List Nat) (e : Expr) :
    (e.traversalAt place).Pairwise Visit.InOrder := by
  induction e using induction_branches generalizing place with
  | _ e ih =>
    rw [traversalAt_eq, List.pairwise_cons, List.pairwise_append]
    refine ⟨fun w hw => ⟨fun _ => rfl, fun hp => ?_⟩, ?_, List.pairwise_singleton _ _, ?_⟩
    · -- What is below the node has no place above it.
      rw [List.mem_append, List.mem_singleton] at hw
      cases hw with
      | inl hw =>
        obtain ⟨i, below, hplace⟩ := turn_of_mem_branch hw
        rw [hplace] at hp
        exact absurd hp (turn_not_above place i below)
      | inr hw => rw [hw]; rfl
    · rw [List.pairwise_flatMap]
      refine ⟨fun x hx => ih x.1 (List.fst_mem_of_mem_zipIdx hx) _, ?_⟩
      have hturns : e.branches.zipIdx.Pairwise fun x y => x.2 ≠ y.2 :=
        List.pairwise_map.1 (List.nodup_zipIdx_map_snd e.branches)
      refine hturns.imp fun h v hv w hw => ?_
      obtain ⟨below, hv, _⟩ := at?_of_mem_traversalAt hv
      obtain ⟨below', hw, _⟩ := at?_of_mem_traversalAt hw
      rw [List.append_assoc, List.singleton_append] at hv hw
      exact inOrder_of_turns hv hw h
    · intro v hv w hw
      obtain ⟨i, below, hplace⟩ := turn_of_mem_branch hv
      rw [List.mem_singleton] at hw
      refine ⟨fun hp => ?_, fun _ => by rw [hw]; rfl⟩
      rw [hplace, hw] at hp
      exact absurd hp (turn_not_above place i below)

end Expr

end ParserKit

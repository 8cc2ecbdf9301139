import ParserKit.Proofs.Expr.Evaluation

namespace ParserKit

def unlessMissing {α : Type} (missing : Option String) (result : Except Fault α) : Except Fault α :=
  match missing with
  | some address => .error (.missingCell address)
  | none => result

@[simp] theorem unlessMissing_none {α : Type} (result : Except Fault α) :
    unlessMissing none result = result := rfl

theorem unlessMissing_bind {α β : Type} (missing : Option String) (result : Except Fault α)
    (next : α → Except Fault β) :
    (unlessMissing missing result).bind next = unlessMissing missing (result.bind next) := by
  cases missing <;> rfl

namespace Transformer

structure Evaluates (t : Transformer) : Prop where
  enter_eq (kind : String) : t.enter kind = none
  handler_number (x : Float) (values : List Value) : t.handler (.number x) values = .ok (.float x)
  handler_rebuild (e : Expr) (parts : List Expr) : t.handler (e.rebuild parts) = t.handler e
  exists_float {e : Expr} (he : ∀ kind, e ≠ .custom kind) {xs : List Float} :
    xs.length = e.branches.length → ∃ x, t.handler e (xs.map .float) = .ok (.float x)

variable {t t' : Transformer}

theorem result_transformAll_congr {es : List Expr}
    (h : ∀ e ∈ es, (t.transform e).result = (t'.transform e).result) :
    (t.transformAll es).result = (t'.transformAll es).result := by
  induction es with
  | nil => rfl
  | cons e es ih =>
    rw [List.forall_mem_cons] at h
    simp only [transformAll, Journal.result_andThen, h.1, ih h.2]

theorem handler_withMethod_of_ne {kind : String} {method : Expr → List Value → Except Fault Value}
    {e : Expr} (h : e.kind ≠ kind) : (t.withMethod kind method).handler e = t.handler e := by
  rw [handler, withMethod]
  dsimp only
  rw [if_neg h]
  rfl

theorem result_transform_congr (ht : ∀ kind, t.enter kind = none)
    (ht' : ∀ kind, t'.enter kind = none) {e : Expr}
    (h : ∀ node ∈ e.postorder, t.handler node = t'.handler node) :
    (t.transform e).result = (t'.transform e).result := by
  induction e using Expr.induction_branches with
  | _ e ih =>
    rw [e.postorder_eq, List.forall_mem_append, List.forall_mem_singleton] at h
    rw [t.result_transform (ht _), t'.result_transform (ht' _), h.2, below, below]
    cases hc : e.children with
    | error fault => rfl
    | ok es =>
      obtain rfl := Expr.branches_of_children hc
      dsimp only
      rw [result_transformAll_congr fun c hmem => ih c hmem fun node hnode =>
        h.1 node (List.mem_flatMap.2 ⟨c, hmem, hnode⟩)]

theorem result_of_standard (ht : ∀ kind, t.enter kind = none) {e : Expr} (he : e.Standard) :
    (t.transform e).result = (t.transformAll e.branches).result.bind (t.handler e) := by
  rw [t.result_transform (ht _), below, Expr.children_of_standard he]

namespace Evaluates

theorem exists_floats {es : List Expr}
    (h : ∀ e ∈ es, ∃ x, (t.transform e).result = .ok (.float x)) :
    ∃ xs : List Float, xs.length = es.length ∧
      (t.transformAll es).result = .ok (xs.map .float) := by
  induction es with
  | nil => exact ⟨[], rfl, rfl⟩
  | cons e es ih =>
    rw [List.forall_mem_cons] at h
    obtain ⟨⟨x, hx⟩, h⟩ := h
    obtain ⟨xs, hlen, hxs⟩ := ih h
    refine ⟨x :: xs, congrArg Nat.succ hlen, ?_⟩
    rw [transformAll, Journal.result_andThen, hx, Except.bind, Journal.result_andThen, hxs]
    rfl

theorem exists_result (ht : t.Evaluates) {e : Expr} (he : e.Standard) :
    ∃ x, (t.transform e).result = .ok (.float x) := by
  induction e using Expr.induction_branches with
  | _ e ih =>
    obtain ⟨hkind, hbranches⟩ := Expr.standard_iff.1 he
    obtain ⟨xs, hlen, hxs⟩ := exists_floats fun c hc => ih c hc (hbranches c hc)
    rw [result_of_standard ht.enter_eq he, hxs]
    exact ht.exists_float hkind hlen

end Evaluates

end Transformer

namespace Expr

def address? : Expr → Option String
  | reference address => some address
  | _ => none

def addresses (e : Expr) : List String := e.postorder.filterMap address?

variable (cells : List (String × Float))

/-- The first address in a tree for which there is no cell. -/
def missing? (e : Expr) : Option String :=
  e.addresses.find? fun address => (cells.lookup address).isNone

def fillNode : Expr → Expr
  | reference address => match cells.lookup address with
    | some x => number x
    | none => reference address
  | e => e

def fill (e : Expr) : Expr := e.rewrite (fillNode cells)

theorem eq_reference {e : Expr} {address : String} (h : e.address? = some address) :
    e = reference address := by
  cases e <;> cases h
  rfl

theorem kind_ne_reference {e : Expr} (h : e.address? = none) (hkind : ∀ kind, e ≠ custom kind) :
    e.kind ≠ "reference" := by
  cases e with
  | reference address => cases h
  | custom kind => exact absurd rfl (hkind kind)
  | _ => simp [kind]

theorem mem_addresses {address : String} {e : Expr} :
    address ∈ e.addresses ↔ .reference address ∈ e.postorder := by
  rw [addresses, List.mem_filterMap]
  constructor
  · rintro ⟨node, hnode, h⟩
    cases node with
    | reference a =>
      cases h
      exact hnode
    | _ => cases h
  · exact fun h => ⟨_, h, rfl⟩

theorem missing?_eq_none_iff {e : Expr} :
    e.missing? cells = none ↔
      ∀ address, .reference address ∈ e.postorder → (cells.lookup address).isSome := by
  simp [missing?, mem_addresses, Option.isSome_iff_ne_none]

theorem missing?_isSome_iff {e : Expr} :
    (∃ address, e.missing? cells = some address) ↔
      ∃ address, .reference address ∈ e.postorder ∧ cells.lookup address = none := by
  rw [← Option.isSome_iff_exists, missing?, List.find?_isSome]
  simp [mem_addresses]

theorem addresses_eq (e : Expr) :
    e.addresses = e.branches.flatMap addresses ++ e.address?.toList := by
  rw [addresses, postorder_eq, List.filterMap_append, List.filterMap_flatMap]
  congr 1

theorem missing?_eq {e : Expr} (he : e.address? = none) :
    e.missing? cells = e.branches.findSome? (missing? cells) := by
  rw [missing?, addresses_eq, he, Option.toList_none, List.append_nil, List.find?_flatMap]
  rfl

theorem missing?_reference (address : String) :
    (reference address).missing? cells =
      if (cells.lookup address).isNone then some address else none := by
  rw [missing?, addresses_eq, branches, List.flatMap_nil, List.nil_append, address?,
    Option.toList_some, List.find?_singleton]

theorem branches_fillNode (e : Expr) : (fillNode cells e).branches = e.branches := by
  cases e with
  | reference address =>
    rw [fillNode]
    split <;> rfl
  | _ => rfl

theorem branches_fill (e : Expr) : (e.fill cells).branches = e.branches.map (fill cells) := by
  rw [fill, rewrite_eq, branches_fillNode, branches_rebuild]
  rfl

theorem fill_eq_rebuild {e : Expr} (he : e.address? = none) :
    e.fill cells = e.rebuild (e.branches.map (fill cells)) := by
  rw [fill, rewrite_eq]
  cases e with
  | reference address => cases he
  | _ => rfl

theorem fill_reference (address : String) :
    (reference address).fill cells = fillNode cells (reference address) := rewrite_eq ..

theorem Standard.fill {e : Expr} (he : e.Standard) : (e.fill cells).Standard := by
  induction e using induction_branches with
  | _ e ih =>
    obtain ⟨hkind, hbranches⟩ := standard_iff.1 he
    rw [standard_iff, branches_fill, List.forall_mem_map]
    refine ⟨fun kind h => ?_, fun c hc => ih c hc (hbranches c hc)⟩
    cases e with
    | reference address =>
      rw [fill_reference, fillNode] at h
      split at h <;> cases h
    | custom kind' => exact hkind kind' rfl
    | _ => rw [fill_eq_rebuild cells rfl] at h; cases h

end Expr

namespace Evaluator

open Transformer

variable {t : Transformer} (cells : List (String × Float))

theorem handler_withCells_reference (address : String) (values : List Value) :
    (withCells t cells).handler (.reference address) values =
      match cells.lookup address with
      | some x => .ok (.float x)
      | none => .error (.missingCell address) := rfl

theorem result_transformAll_withCells {es : List Expr}
    (hfilled : ∀ e ∈ es, ∃ x, (t.transform (e.fill cells)).result = .ok (.float x))
    (hes : ∀ e ∈ es, ((withCells t cells).transform e).result =
      unlessMissing (e.missing? cells) (t.transform (e.fill cells)).result) :
    ((withCells t cells).transformAll es).result =
      unlessMissing (es.findSome? (Expr.missing? cells))
        (t.transformAll (es.map (Expr.fill cells))).result := by
  induction es with
  | nil => rfl
  | cons e es ih =>
    rw [List.forall_mem_cons] at hfilled hes
    obtain ⟨x, hx⟩ := hfilled.1
    have htail := ih hfilled.2 hes.2
    simp only [transformAll, Journal.result_andThen, List.map_cons, List.findSome?_cons, hes.1, hx,
      htail, unlessMissing_bind]
    cases e.missing? cells with
    | some address => rfl
    | none => simp only [unlessMissing_none, Except.bind]

theorem result_withCells (ht : t.Evaluates) {e : Expr} (he : e.Standard) :
    ((withCells t cells).transform e).result =
      unlessMissing (e.missing? cells) (t.transform (e.fill cells)).result := by
  have henter : ∀ kind, (withCells t cells).enter kind = none := ht.enter_eq
  induction e using Expr.induction_branches with
  | _ e ih =>
    obtain ⟨hkind, hbranches⟩ := Expr.standard_iff.1 he
    rw [result_of_standard henter he, result_of_standard ht.enter_eq (he.fill cells),
      Expr.branches_fill, result_transformAll_withCells cells
        (fun c hc => ht.exists_result ((hbranches c hc).fill cells))
        (fun c hc => ih c hc (hbranches c hc)), unlessMissing_bind]
    cases haddress : e.address? with
    | none =>
      have hne := Expr.kind_ne_reference haddress hkind
      rw [withCells, handler_withMethod_of_ne hne, Expr.fill_eq_rebuild cells haddress,
        ht.handler_rebuild, Expr.missing?_eq cells haddress]
    | some address =>
      obtain rfl := Expr.eq_reference haddress
      rw [Expr.missing?_reference, Expr.fill_reference, Expr.fillNode, Expr.branches]
      show (withCells t cells).handler (.reference address) [] = _
      rw [handler_withCells_reference]
      cases cells.lookup address with
      | none => rfl
      | some x => exact (ht.handler_number x []).symm

theorem binary_rebuild (op : Operator) (l r : Expr) (parts : List Expr) :
    ∃ l' r', (Expr.binary op l r).rebuild parts = .binary op l' r' := by
  rcases parts with _ | ⟨l', _ | ⟨r', _ | ⟨_, parts⟩⟩⟩ <;> exact ⟨_, _, rfl⟩

theorem evaluates_basic : basic.Evaluates where
  enter_eq _ := rfl
  handler_number _ _ := rfl
  handler_rebuild e parts := by
    cases e with
    | binary op l r =>
      obtain ⟨l', r', h⟩ := binary_rebuild op l r parts
      rw [h]
      funext values
      rcases values with _ | ⟨v, _ | ⟨w, _ | ⟨_, values⟩⟩⟩ <;> rfl
    | _ => rfl
  exists_float {e} hkind xs hlen := by
    cases e with
    | binary op l r =>
      obtain ⟨x, y, rfl⟩ := List.length_eq_two.1 hlen
      exact ⟨op.apply x y, op.applyValues_float x y⟩
    | custom kind => exact absurd rfl (hkind kind)
    | _ => exact ⟨_, rfl⟩

theorem sumFrom_floats (total : Float) (xs : List Float) :
    sumFrom total (xs.map .float) = .ok (.float (xs.foldl (· + ·) total)) := by
  induction xs generalizing total with
  | nil => rfl
  | cons x xs ih => exact ih (total + x)

theorem evaluates_withSum (ht : t.Evaluates) : (withSum t).Evaluates where
  enter_eq := ht.enter_eq
  handler_number x values := by
    rw [withSum, handler_withMethod_of_ne (by simp [Expr.kind]), ht.handler_number]
  handler_rebuild e parts := by
    cases e with
    | binary op l r =>
      obtain ⟨l', r', h⟩ := binary_rebuild op l r parts
      have hrebuild := ht.handler_rebuild (.binary op l r) parts
      rw [h] at hrebuild ⊢
      rw [withSum, handler_withMethod_of_ne (by simp [Expr.kind]), hrebuild,
        handler_withMethod_of_ne (by simp [Expr.kind])]
    | call name args =>
      funext values
      show sum (.call name parts) values = sum (.call name args) values
      by_cases h : name = "SUM"
      · subst h
        rfl
      · simp [sum, h]
    | _ => rfl
  exists_float {e} hkind xs hlen := by
    cases e with
    | call name args =>
      show ∃ x, sum (.call name args) (xs.map .float) = .ok (.float x)
      by_cases h : name = "SUM"
      · subst h
        exact ⟨_, sumFrom_floats 0 xs⟩
      · exact ⟨0, by simp [sum, h]⟩
    | custom kind => exact absurd rfl (hkind kind)
    | _ =>
      rw [withSum, handler_withMethod_of_ne (by simp [Expr.kind])]
      exact ht.exists_float (by simp) hlen

theorem result_withCells_zero {e : Expr} (he : e.Standard)
    (h : ∀ address, .reference address ∈ e.postorder → cells.lookup address = some 0) :
    ((withCells basic cells).transform e).result = e.evaluate := by
  refine result_transform_congr (fun _ => rfl) (fun _ => rfl) fun node hnode => ?_
  cases haddress : node.address? with
  | none =>
    rw [withCells, handler_withMethod_of_ne (Expr.kind_ne_reference haddress (he node hnode))]
  | some address =>
    obtain rfl := Expr.eq_reference haddress
    funext values
    rw [handler_withCells_reference, h address hnode]
    rfl

/-- With cells, an evaluation ends in a fault exactly if a reference anywhere in the tree has no
cell, also where a call ignores it.  Otherwise it comes to the same as the evaluation, without cells,
of the tree in which each reference is replaced by the number of its cell. -/
theorem withCells_agrees_fill {e : Expr} (he : e.Standard) :
    (∀ t ∈ [basic, withSum basic],
      ((∃ address, ((withCells t cells).transform e).result = .error (.missingCell address)) ↔
        ∃ address, .reference address ∈ e.postorder ∧ cells.lookup address = none) ∧
      ((∀ address, .reference address ∈ e.postorder → (cells.lookup address).isSome) →
        ∃ x, ((withCells t cells).transform e).result = .ok (.float x) ∧
          (t.transform (e.fill cells)).result = .ok (.float x))) ∧
    ((∀ address, .reference address ∈ e.postorder → cells.lookup address = some 0) →
      ((withCells basic cells).transform e).result = e.evaluate) := by
  refine ⟨fun t hmem => ?_, result_withCells_zero cells he⟩
  have ht : t.Evaluates := by
    rcases List.mem_pair.1 hmem with rfl | rfl
    · exact evaluates_basic
    · exact evaluates_withSum evaluates_basic
  obtain ⟨x, hx⟩ := ht.exists_result (he.fill cells)
  rw [result_withCells cells ht he, hx, ← Expr.missing?_isSome_iff, ← Expr.missing?_eq_none_iff]
  cases e.missing? cells with
  | none => simp
  | some address => simp [unlessMissing]

theorem withCells_agrees_fill_ignored_argument :
    let e : Expr := .binary .add (.call "NOW" [.reference "B2"]) (.reference "A1")
    (∃ address, ((withCells (withSum basic) [("A1", 10)]).transform e).result =
        .error (.missingCell address)) ∧
      (∃ x, ((withCells basic [("A1", 10), ("B2", 5)]).transform e).result = .ok (.float x) ∧
        (basic.transform (.binary .add (.call "NOW" [.number 5]) (.number 10))).result =
          .ok (.float x)) ∧
      ((withCells basic [("A1", 0), ("B2", 0)]).transform e).result = e.evaluate := by
  intro e
  have he : e.Standard := by simp [e]
  have hnodes : e.postorder =
      [.reference "B2", .call "NOW" [.reference "B2"], .reference "A1", e] := rfl
  have haddress (address : String) (h : .reference address ∈ e.postorder) :
      address = "B2" ∨ address = "A1" := by
    simpa [hnodes, e] using h
  refine ⟨((withCells_agrees_fill _ he).1 _ (by simp)).1.2 ⟨"B2", by simp [hnodes], rfl⟩,
    ((withCells_agrees_fill [("A1", 10), ("B2", 5)] he).1 _ (by simp)).2 fun address h => ?_,
    (withCells_agrees_fill _ he).2 fun address h => ?_⟩
  · obtain rfl | rfl := haddress address h <;> rfl
  · obtain rfl | rfl := haddress address h <;> rfl

end Evaluator

end ParserKit

import ParserKit.Expr.Evaluator
import ParserKit.Proofs.Expr.Calls

namespace ParserKit

namespace Transformer

variable (t : Transformer)

theorem result_transformAll_of {es : List Expr} {value : Expr → Value}
    (h : ∀ e ∈ es, (t.transform e).result = .ok (value e)) :
    (t.transformAll es).result = .ok (es.map value) := by
  induction es with
  | nil => rfl
  | cons e es ih =>
    rw [List.forall_mem_cons] at h
    rw [transformAll, Journal.result_andThen, h.1, Except.bind, Journal.result_andThen, ih h.2]
    rfl

theorem result_transform {e : Expr} (h : t.enter e.kind = none) :
    (t.transform e).result = (t.below e).result.bind (t.handler e) := by
  rw [transform_eq, visit, entering, h, Journal.pure_andThen, Journal.result_andThen]
  rfl

end Transformer

namespace Expr

def rebuild : Expr → List Expr → Expr
  | binary op _ _, [l, r] => binary op l r
  | call name _, args => call name args
  | e, _ => e

def rewrite (f : Expr → Expr) : Expr → Expr := fold fun e parts => f (e.rebuild parts)

theorem rewrite_eq (f : Expr → Expr) (e : Expr) :
    e.rewrite f = f (e.rebuild (e.branches.map (rewrite f))) := fold_eq _ e

theorem branches_rebuild (e : Expr) (g : Expr → Expr) :
    (e.rebuild (e.branches.map g)).branches = e.branches.map g := by
  cases e <;> rfl

/-- No node of the tree is of a kind of the user's own. -/
def Standard (e : Expr) : Prop := ∀ node ∈ e.postorder, ∀ kind, node ≠ .custom kind

theorem standard_iff {e : Expr} :
    e.Standard ↔ (∀ kind, e ≠ .custom kind) ∧ ∀ c ∈ e.branches, c.Standard := by
  simp only [Standard, e.postorder_eq, List.mem_append, List.mem_flatMap, List.mem_singleton]
  constructor
  · intro h
    exact ⟨h e (.inr rfl), fun c hc node hnode => h node (.inl ⟨c, hc, hnode⟩)⟩
  · rintro ⟨he, hc⟩ node (⟨c, hmem, hnode⟩ | rfl)
    · exact hc c hmem node hnode
    · exact he

@[simp] theorem standard_number (x : Float) : (number x).Standard := by
  rw [standard_iff]
  simp [branches]

@[simp] theorem standard_binary {op : Operator} {l r : Expr} :
    (binary op l r).Standard ↔ l.Standard ∧ r.Standard := by
  rw [standard_iff]
  simp [branches]

@[simp] theorem standard_call {name : String} {args : List Expr} :
    (call name args).Standard ↔ ∀ e ∈ args, e.Standard := by
  rw [standard_iff]
  simp [branches]

@[simp] theorem standard_reference (address : String) : (reference address).Standard := by
  rw [standard_iff]
  simp [branches]

theorem children_of_standard {e : Expr} (h : e.Standard) : e.children = .ok e.branches := by
  cases e with
  | custom kind => exact absurd rfl ((standard_iff.1 h).1 kind)
  | _ => rfl

def valueOf : Expr → List Float → Float
  | number x, _ => x
  | binary op _ _, [x, y] => op.apply x y
  | _, _ => 0

def value : Expr → Float := fold valueOf

theorem value_eq (e : Expr) : e.value = valueOf e (e.branches.map value) := fold_eq valueOf e

theorem valueOf_rebuild (e : Expr) (g : Expr → Expr) (xs : List Float) :
    valueOf (e.rebuild (e.branches.map g)) xs = valueOf e xs := by
  cases e with
  | binary op l r => rcases xs with _ | ⟨x, _ | ⟨y, _ | ⟨z, xs⟩⟩⟩ <;> rfl
  | _ => rfl

theorem value_rewrite {f : Expr → Expr} (hb : ∀ e, (f e).branches = e.branches)
    (hv : ∀ e xs, valueOf (f e) xs = valueOf e xs) (e : Expr) : (e.rewrite f).value = e.value := by
  induction e using induction_branches with
  | _ e ih =>
    rw [rewrite_eq, value_eq, value_eq e, hv, valueOf_rebuild, hb, branches_rebuild, List.map_map]
    exact congrArg (valueOf e) (List.map_congr_left ih)

theorem handler_basic {e : Expr} (h : e.Standard) :
    Evaluator.basic.handler e (e.branches.map fun c => .float c.value) = .ok (.float e.value) := by
  rw [value_eq]
  cases e with
  | binary op l r => exact op.applyValues_float l.value r.value
  | custom kind => exact absurd rfl ((standard_iff.1 h).1 kind)
  | _ => rfl

theorem evaluate_eq {e : Expr} (h : e.Standard) : e.evaluate = .ok (.float e.value) := by
  induction e using induction_branches with
  | _ e ih =>
    have hbelow : (Evaluator.basic.below e).result = .ok (e.branches.map fun c => .float c.value) := by
      rw [Transformer.below, children_of_standard h]
      exact Evaluator.basic.result_transformAll_of fun c hc => ih c hc ((standard_iff.1 h).2 c hc)
    rw [evaluate, Evaluator.basic.result_transform rfl, hbelow]
    exact handler_basic h

end Expr

end ParserKit

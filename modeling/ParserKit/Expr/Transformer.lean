import ParserKit.Value.Basic

/-! Transformers of trees.  A node is entered, then its children are transformed from left to right,
then the node is processed together with the values of its children. -/

namespace ParserKit

inductive Call
  | enter (node : Expr)
  | process (node : Expr) (children : List Value)

structure Transformer where
  enter : String → Option (Expr → Except Fault Unit)
  method : String → Option (Expr → List Value → Except Fault Value)
  fallback : Expr → List Value → Except Fault Value

/-- A result together with the calls made on the way to it. -/
structure Journal (α : Type) where
  calls : List Call
  result : Except Fault α

namespace Journal

variable {α β : Type}

def pure (value : α) : Journal α := ⟨[], .ok value⟩

def fault (f : Fault) : Journal α := ⟨[], .error f⟩

def call (c : Call) (result : Except Fault α) : Journal α := ⟨[c], result⟩

def andThen (j : Journal α) (next : α → Journal β) : Journal β :=
  match j.result with
  | .ok value => ⟨j.calls ++ (next value).calls, (next value).result⟩
  | .error f => ⟨j.calls, .error f⟩

@[simp] theorem pure_andThen (value : α) (next : α → Journal β) :
    (pure value).andThen next = next value := rfl

@[simp] theorem fault_andThen (f : Fault) (next : α → Journal β) :
    (fault f).andThen next = fault f := rfl

theorem andThen_assoc {γ : Type} (j : Journal α) (f : α → Journal β) (g : β → Journal γ) :
    (j.andThen f).andThen g = j.andThen fun a => (f a).andThen g := by
  obtain ⟨calls, _ | value⟩ := j
  · rfl
  · simp only [andThen]
    cases (f value).result <;> simp

end Journal

namespace Transformer

def entering (t : Transformer) (node : Expr) : Journal Unit :=
  match t.enter node.kind with
  | some hook => .call (.enter node) (hook node)
  | none => .pure ()

def processing (t : Transformer) (node : Expr) (children : List Value) : Journal Value :=
  .call (.process node children) (((t.method node.kind).getD t.fallback) node children)

def visit (t : Transformer) (node : Expr) (children : Journal (List Value)) : Journal Value :=
  (t.entering node).andThen fun _ => children.andThen (t.processing node)

mutual
def transform (t : Transformer) : Expr → Journal Value
  | .number x => t.visit (.number x) (.pure [])
  | .binary op l r => t.visit (.binary op l r) <|
    (transform t l).andThen fun v => (transform t r).andThen fun w => .pure [v, w]
  | .call name args => t.visit (.call name args) (transformAll t args)
  | .reference address => t.visit (.reference address) (.pure [])
  | .custom kind => t.visit (.custom kind) (.fault (.noChildren kind))

def transformAll (t : Transformer) : List Expr → Journal (List Value)
  | [] => .pure []
  | e :: es => (transform t e).andThen fun v => (transformAll t es).andThen fun vs => .pure (v :: vs)
end

def plain : Transformer := ⟨fun _ => none, fun _ => none, fun _ children => .ok (.list children)⟩

def withMethod (t : Transformer) (kind : String)
    (method : Expr → List Value → Except Fault Value) : Transformer :=
  { t with method := fun k => if k = kind then some method else t.method k }

end Transformer

end ParserKit

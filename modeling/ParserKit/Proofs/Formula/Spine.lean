import Mathlib.Data.List.Induction
import Mathlib.Data.List.Zip
import ParserKit.Proofs.Formula.Chain

namespace ParserKit

namespace Expr

/-- Each operand is the left one of the operator after it. -/
structure NestsRight (fold : Expr → Links → Expr) : Prop where
  nil : ∀ a, fold a [] = a
  cons : ∀ a op b links, fold a ((op, b) :: links) = .binary op a (fold b links)

/-- Each operand is the right one of the operator before it. -/
structure NestsLeft (fold : Expr → Links → Expr) : Prop where
  nil : ∀ a, fold a [] = a
  append : ∀ a links op b, fold a (links ++ [(op, b)]) = .binary op (fold a links) b

theorem nestsRight_foldRight : NestsRight foldRight where
  nil := foldRight_nil
  cons a op b := foldRight_cons a b op

theorem nestsLeft_foldLeft : NestsLeft foldLeft where
  nil := foldLeft_nil
  append a links op b := foldLeft_append a b op links

theorem NestsRight.eq_foldRight {fold : Expr → Links → Expr} (h : NestsRight fold) :
    fold = foldRight := by
  funext a links
  induction links generalizing a with
  | nil => rw [h.nil, foldRight_nil]
  | cons link links ih =>
    obtain ⟨op, b⟩ := link
    rw [h.cons, foldRight_cons, ih]

theorem NestsLeft.eq_foldLeft {fold : Expr → Links → Expr} (h : NestsLeft fold) :
    fold = foldLeft := by
  funext a links
  induction links using List.reverseRecOn with
  | nil => rw [h.nil, foldLeft_nil]
  | append_singleton links link ih =>
    obtain ⟨op, b⟩ := link
    rw [h.append, foldLeft_append, ih]

def operands (a : Expr) (links : Links) : List Expr := a :: links.map Prod.snd

theorem foldRight_eq_foldl (a : Expr) (links : Links) :
    a.foldRight links =
      ((links.map Prod.fst).reverse.zip (operands a links).dropLast.reverse).foldl
        (fun right (op, left) => .binary op left right) ((operands a links).getLastD a) := by
  -- the last operand starts the fold, which leaves one operand for each operator
  have hlen : (links.map Prod.fst).length = (operands a links).dropLast.length := by
    simp [operands]
  rw [List.zip, ← List.reverse_zipWith hlen, List.foldl_reverse]
  rfl

def unfoldRight? : Nat → Expr → Option (Expr × Links)
  | 0, e => some (e, [])
  | n + 1, binary op a e => (unfoldRight? n e).map fun (b, links) => (a, (op, b) :: links)
  | _ + 1, _ => none

def unfoldLeft? : Nat → Expr → Option (Expr × Links)
  | 0, e => some (e, [])
  | n + 1, binary op e b => (unfoldLeft? n e).map fun (a, links) => (a, links ++ [(op, b)])
  | _ + 1, _ => none

theorem unfoldRight?_foldRight (a : Expr) (links : Links) :
    (a.foldRight links).unfoldRight? links.length = some (a, links) := by
  induction links generalizing a with
  | nil => rfl
  | cons link links ih =>
    obtain ⟨op, b⟩ := link
    rw [foldRight_cons, List.length_cons, unfoldRight?, ih]
    rfl

theorem unfoldLeft?_foldLeft (a : Expr) (links : Links) :
    (a.foldLeft links).unfoldLeft? links.length = some (a, links) := by
  induction links using List.reverseRecOn with
  | nil => rfl
  | append_singleton links link ih =>
    obtain ⟨op, b⟩ := link
    rw [foldLeft_append, List.length_append, List.length_singleton, unfoldLeft?, ih]
    rfl

theorem foldRight_of_unfoldRight? {n : Nat} {e a : Expr} {links : Links}
    (h : e.unfoldRight? n = some (a, links)) : links.length = n ∧ a.foldRight links = e := by
  induction n generalizing e a links with
  | zero =>
    cases h
    exact ⟨rfl, foldRight_nil e⟩
  | succ n ih =>
    cases e with
    | binary op l r =>
      obtain ⟨⟨b, rest⟩, hr, heq⟩ := Option.map_eq_some_iff.1 h
      cases heq
      obtain ⟨hlen, hfold⟩ := ih hr
      rw [List.length_cons, hlen, foldRight_cons, hfold]
      exact ⟨rfl, rfl⟩
    | _ => cases h

theorem foldLeft_of_unfoldLeft? {n : Nat} {e a : Expr} {links : Links}
    (h : e.unfoldLeft? n = some (a, links)) : links.length = n ∧ a.foldLeft links = e := by
  induction n generalizing e a links with
  | zero =>
    cases h
    exact ⟨rfl, foldLeft_nil e⟩
  | succ n ih =>
    cases e with
    | binary op l r =>
      obtain ⟨⟨b, rest⟩, hl, heq⟩ := Option.map_eq_some_iff.1 h
      cases heq
      obtain ⟨hlen, hfold⟩ := ih hl
      rw [List.length_append, List.length_singleton, hlen, foldLeft_append, hfold]
      exact ⟨rfl, rfl⟩
    | _ => cases h

end Expr

namespace Formula

def chainCode (a : Expr) (links : Links) : Value := .tuple [.expr a, .list (links.map linkCode)]

theorem foldChain_chainCode (fold : Expr → Links → Expr) (a : Expr) (links : Links) :
    foldChain fold (chainCode a links) = .expr (fold a links) := by
  rw [chainCode, foldChain, filterMap_linkCode]

/-- Each fold of a chain is the one which nests it to its side; the one to the right may go through
operators and operands from the end.  Taking as many nodes of the spine apart as there are operators
gives the chain back, each operator between the operands where it stood. -/
theorem folds_lossless :
    (∀ fold, Expr.NestsRight fold ↔ fold = Expr.foldRight) ∧
    (∀ fold, Expr.NestsLeft fold ↔ fold = Expr.foldLeft) ∧
    (∀ a links, Expr.foldRight a links =
      ((links.map Prod.fst).reverse.zip (Expr.operands a links).dropLast.reverse).foldl
        (fun right (op, left) => .binary op left right) ((Expr.operands a links).getLastD a)) ∧
    (∀ n (e a : Expr) links, e.unfoldRight? n = some (a, links) ↔
      links.length = n ∧ a.foldRight links = e) ∧
    (∀ n (e a : Expr) links, e.unfoldLeft? n = some (a, links) ↔
      links.length = n ∧ a.foldLeft links = e) ∧
    (∀ fold a links, foldChain fold (chainCode a links) = .expr (fold a links)) := by
  refine ⟨fun _ => ⟨fun h => h.eq_foldRight, ?_⟩, fun _ => ⟨fun h => h.eq_foldLeft, ?_⟩,
    Expr.foldRight_eq_foldl, fun n e a links => ⟨Expr.foldRight_of_unfoldRight?, ?_⟩,
    fun n e a links => ⟨Expr.foldLeft_of_unfoldLeft?, ?_⟩, foldChain_chainCode⟩
  · rintro rfl
    exact Expr.nestsRight_foldRight
  · rintro rfl
    exact Expr.nestsLeft_foldLeft
  · rintro ⟨rfl, rfl⟩
    exact Expr.unfoldRight?_foldRight a links
  · rintro ⟨rfl, rfl⟩
    exact Expr.unfoldLeft?_foldLeft a links

end Formula

end ParserKit

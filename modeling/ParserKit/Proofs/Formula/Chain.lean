import ParserKit.Grammar.Formula
import ParserKit.Proofs.Formula.Grammar
import ParserKit.Proofs.Language.Repetition

namespace ParserKit

theorem Expr.foldRight_nil (a : Expr) : a.foldRight [] = a := rfl

theorem Expr.foldRight_cons (a b : Expr) (op : Operator) (links : Links) :
    a.foldRight ((op, b) :: links) = .binary op a (b.foldRight links) := by
  simp only [foldRight, List.map_cons, List.getLastD_cons]
  rw [List.dropLast_cons_cons]
  rfl

theorem Expr.foldLeft_nil (a : Expr) : a.foldLeft [] = a := rfl

theorem Expr.foldLeft_cons (a b : Expr) (op : Operator) (links : Links) :
    a.foldLeft ((op, b) :: links) = (Expr.binary op a b).foldLeft links := rfl

theorem Expr.foldLeft_append (a b : Expr) (op : Operator) (links : Links) :
    a.foldLeft (links ++ [(op, b)]) = .binary op (a.foldLeft links) b := by
  rw [foldLeft, List.foldl_append]
  rfl

namespace Formula

open ParserKit.Language

def Symbol (ops : List Operator) : Language Operator :=
  fun w op => op ∈ ops ∧ w = op.symbol.toList

abbrev Link (ops : List Operator) (O : Language Expr) : Language (Operator × Expr) :=
  (Symbol ops).seq O

variable {ops : List Operator} {O : Language Expr} {w : Input} {e : Expr}

theorem LeftChain.append_star {u v : Input} {a : Expr} {links : Links} (hu : LeftChain ops O u a)
    (hv : (Link ops O).Star v links) : LeftChain ops O (u ++ v) (a.foldLeft links) := by
  induction hv generalizing u a with
  | nil =>
    rw [List.append_nil, Expr.foldLeft_nil]
    exact hu
  | @cons _ _ link _ hl _ ih =>
    obtain ⟨s, t, rfl, ⟨hop, rfl⟩, ht⟩ := hl
    obtain ⟨op, b⟩ := link
    rw [Expr.foldLeft_cons]
    have h := ih (.link hu hop ht)
    rwa [List.append_assoc] at h

theorem leftChain_iff :
    LeftChain ops O w e ↔ ((O.seq (Link ops O).Star).map fun x => x.1.foldLeft x.2) w e := by
  constructor
  · intro h
    induction h with
    | operand hw => exact ⟨(_, []), ⟨_, [], (List.append_nil _).symm, hw, .nil⟩, rfl⟩
    | @link u v op _ b _ hop hv ih =>
      obtain ⟨⟨a, links⟩, ⟨u₁, u₂, rfl, ha, hl⟩, rfl⟩ := ih
      have hlink : Link ops O (op.symbol.toList ++ v) (op, b) := ⟨_, v, rfl, ⟨hop, rfl⟩, hv⟩
      refine ⟨(a, links ++ [(op, b)]), ⟨u₁, u₂ ++ (op.symbol.toList ++ v), ?_, ha, ?_⟩, ?_⟩
      · exact List.append_assoc ..
      · exact hl.append_singleton hlink
      · exact Expr.foldLeft_append ..
  · rintro ⟨⟨a, links⟩, ⟨u, v, rfl, ha, hl⟩, rfl⟩
    exact LeftChain.append_star (.operand ha) hl

theorem RightChain.append_star {u v : Input} {a : Expr} {links : Links} (hu : O u a)
    (hv : (Link ops O).Star v links) : RightChain ops O (u ++ v) (a.foldRight links) := by
  induction hv generalizing u a with
  | nil =>
    rw [List.append_nil, Expr.foldRight_nil]
    exact .operand hu
  | @cons _ _ link _ hl _ ih =>
    obtain ⟨s, t, rfl, ⟨hop, rfl⟩, ht⟩ := hl
    obtain ⟨op, b⟩ := link
    rw [Expr.foldRight_cons, List.append_assoc]
    exact .link hu hop (ih ht)

theorem rightChain_iff :
    RightChain ops O w e ↔ ((O.seq (Link ops O).Star).map fun x => x.1.foldRight x.2) w e := by
  constructor
  · intro h
    induction h with
    | operand hw => exact ⟨(_, []), ⟨_, [], (List.append_nil _).symm, hw, .nil⟩, rfl⟩
    | @link u v op a _ ha hop _ ih =>
      obtain ⟨⟨b, links⟩, ⟨v₁, v₂, rfl, hb, hl⟩, rfl⟩ := ih
      have hlink : Link ops O (op.symbol.toList ++ v₁) (op, b) := ⟨_, v₁, rfl, ⟨hop, rfl⟩, hb⟩
      refine ⟨(a, (op, b) :: links), ⟨u, op.symbol.toList ++ v₁ ++ v₂, ?_, ha, .cons hlink hl⟩, ?_⟩
      · rw [List.append_assoc]
      · exact Expr.foldRight_cons ..
  · rintro ⟨⟨a, links⟩, ⟨u, v, rfl, ha, hl⟩, rfl⟩
    exact RightChain.append_star ha hl

variable (ctx : Context) (s : Input)

def Distinct (ops : List Operator) : Prop :=
  ops.Pairwise fun op op' =>
    ¬ op.symbol.toList <+: op'.symbol.toList ∧ ¬ op'.symbol.toList <+: op.symbol.toList

theorem reads_operator (h : Distinct ops) :
    Reads (Symbol ops) .operator (fun _ => False) s ((operator ops).answer ctx s) := by
  rw [operator, Parser.answer_named]
  induction ops with
  | nil =>
    rw [List.map_nil, Parser.answer_first_nil]
    apply Reads.failed
    rintro ⟨_, _, _, _, hop, _⟩
    cases hop
  | cons op ops ih =>
    obtain ⟨hop, h⟩ := List.pairwise_cons.1 h
    have hfirst : Reads ((Language.word op.symbol).map fun _ => op) .operator (fun _ => False) s
        (((Parser.literal op.symbol).map fun _ => .operator op).answer ctx s) := by
      rw [Parser.answer_map]
      exact (Parser.reads_literal ctx op.symbol s).apply (fun _ _ _ => rfl) (fun _ _ _ => rfl)
    rw [List.map_cons, Parser.answer_first_cons]
    refine (hfirst.orElse_of_disjoint (ih h) ?_).congr ?_
    · rintro ⟨_, rest, _, rfl, _, rfl, _⟩ ⟨_, rest', op', hs, hop', rfl⟩
      rcases List.prefix_or_prefix_of_prefix (List.prefix_append _ rest)
        (hs ▸ List.prefix_append _ rest') with hp | hp
      · exact (hop op' hop').1 hp
      · exact (hop op' hop').2 hp
    · intro w op'
      constructor
      · rintro (⟨_, rfl, rfl⟩ | ⟨hop', rfl⟩)
        · exact ⟨List.mem_cons_self, rfl⟩
        · exact ⟨List.mem_cons_of_mem _ hop', rfl⟩
      · rintro ⟨hop', rfl⟩
        rcases List.mem_cons.1 hop' with rfl | hop'
        · exact .inl ⟨(), rfl, rfl⟩
        · exact .inr ⟨hop', rfl⟩

def linkCode (link : Operator × Expr) : Value := .tuple [.operator link.1, .expr link.2]

theorem filterMap_linkCode (links : Links) : (links.map linkCode).filterMap link? = links := by
  induction links with
  | nil => rfl
  | cons link links ih =>
    rw [List.map_cons, List.filterMap_cons_some (f := link?) (b := link) rfl, ih]

theorem reads_chain {More : Input → Prop} {p : Parser} (fold : Expr → Links → Expr)
    (hp : ∀ u rest, s = u ++ rest → Reads O .expr More rest (p.answer ctx rest))
    (hops : Distinct ops) (ne : ∀ w e, O w e → w ≠ [])
    (sep : ∀ rest, (Link ops O).Begins rest → ¬ More rest) :
    Reads ((O.seq (Link ops O).Star).map fun x => fold x.1 x.2) .expr
      (fun rest => More rest ∨ (Link ops O).Begins rest) s ((chain fold ops p).answer ctx s) := by
  have hlink : ∀ u rest, s = u ++ rest → Reads (Link ops O) linkCode More rest
      ((Parser.pair (operator ops) p).answer ctx rest) := fun u rest hs =>
    (reads_operator ctx rest hops).pair_of_sep
      (fun u' rest' _ hs' _ => hp (u ++ u') rest' (by rw [hs, hs', List.append_assoc]))
      (fun _ _ => id)
  have hmany : ∀ u rest a, s = u ++ rest → O u a → Reads (Link ops O).Star (Reads.listCode linkCode)
      (fun rest => More rest ∨ (Link ops O).Begins rest) rest
      ((Parser.pair (operator ops) p).many.answer ctx rest) := by
    intro u rest _ hs _
    refine .many (fun u' rest' hs' => hlink (u ++ u') rest' ?_) ?_ sep
    · rw [hs, hs', List.append_assoc]
    · rintro _ _ ⟨u, v, rfl, _, hv⟩ hnil
      exact ne _ _ hv (List.append_eq_nil_iff.1 hnil).2
  have hpair := (hp [] s rfl).pair hmany (by
    intro v rest _ hv hm
    cases hv with
    | nil => exact ⟨rfl, .inl hm⟩
    | cons hu _ => exact absurd hm (sep _ ⟨_, _, _, List.append_assoc .., hu⟩))
  rw [chain, Parser.answer_map]
  refine hpair.apply (fun _ x _ => ?_) (fun _ _ _ => rfl)
  simp only [Reads.listCode, foldChain, filterMap_linkCode]

end Formula

end ParserKit

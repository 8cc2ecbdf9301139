import ParserKit.Proofs.Formula.Chain
import ParserKit.Proofs.Formula.Numeral
import ParserKit.Proofs.Parser.Nesting

namespace ParserKit.Formula

open Text ParserKit.Language

def startsNumeral (c : Char) : Bool := c == '+' || c == '-' || isAsciiDigit c

def opens (c : Char) : Bool := c == '(' || startsNumeral c

def goesOn (c : Char) : Bool := c != ',' && c != ')'

abbrev Inside (F : Language Expr) (ctx : Context) (s : Input) : Prop :=
  Within (fun s => Reads F .expr (Starts goesOn) s) .formula ctx s

variable {F O : Language Expr} {ctx : Context} {s : Input} {ops : List Operator}

theorem Numeral.starts (w : Input) (x : Float) (h : Numeral w x) : Starts startsNumeral w := by
  have hsign : ∀ sign ∈ signs, ∀ t, Starts isAsciiDigit t → Starts startsNumeral (sign ++ t) := by
    intro sign hs t ht
    simp only [signs, List.mem_cons, List.not_mem_nil, or_false] at hs
    rcases hs with rfl | rfl | rfl
    · exact ht.mono fun c hc => by simp [startsNumeral, hc]
    · rfl
    · rfl
  have hdigits : ∀ {a}, Digits a → ∀ t, Starts isAsciiDigit (a ++ t) := fun ha _ =>
    starts_of_cons ha.1 ha.2
  cases h.1 with
  | @whole _ a hs ha => exact hsign _ hs a (List.append_nil a ▸ hdigits ha [])
  | decimal hs ha _ => exact hsign _ hs _ (hdigits ha _)

theorem Operand.starts (w : Input) (e : Expr) (h : Operand F w e) : Starts opens w := by
  cases h with
  | nested _ => rfl
  | number h => exact (h.starts).mono fun c hc => by simp [opens, hc]

theorem LeftChain.starts {f : Char → Bool} (hO : ∀ w e, O w e → Starts f w) (w : Input) (e : Expr)
    (h : LeftChain ops O w e) : Starts f w := by
  induction h with
  | operand hw => exact hO _ _ hw
  | link _ _ _ ih => exact ih.append _

theorem RightChain.starts {f : Char → Bool} (hO : ∀ w e, O w e → Starts f w) (w : Input) (e : Expr)
    (h : RightChain ops O w e) : Starts f w := by
  cases h with
  | operand hw => exact hO _ _ hw
  | link hu _ _ => exact Begins.starts hO (.intro hu _)

theorem Power.starts : ∀ w e, Power F w e → Starts opens w := RightChain.starts Operand.starts

theorem Product.starts : ∀ w e, Product F w e → Starts opens w := LeftChain.starts Power.starts

theorem Sum.starts : ∀ w e, Sum F w e → Starts opens w := LeftChain.starts Product.starts

theorem not_nil_of_starts {f : Char → Bool} {L : Language Expr} (h : ∀ w e, L w e → Starts f w) :
    ∀ w e, L w e → w ≠ [] := by
  rintro _ e he rfl
  exact h [] e he

theorem link_begins (hO : ∀ w e, O w e → Starts opens w) {rest : Input}
    (h : (Link ops O).Begins rest) :
    ∃ op ∈ ops, ∃ t, rest = op.symbol.toList ++ t ∧ Starts opens t := by
  obtain ⟨_, t, op, rfl, ⟨hop, rfl⟩, ht⟩ := h.seq
  exact ⟨op, hop, t, rfl, ht.starts hO⟩

theorem reads_operand (h : Inside F ctx s) :
    Reads (Operand F) .expr (Starts isNumeralPart) s (operand.answer ctx s) := by
  have hinner : ∀ rest, s = '(' :: rest →
      Reads F .expr (Starts goesOn) rest (nested.answer ctx rest) := by
    intro rest hs
    rw [nested, Parser.answer_rule]
    exact h ['('] rest hs ⟨'(', List.mem_cons_self, rfl⟩
  have hnested := Reads.between (r := ')') hinner (fun _ => Bool.noConfusion) fun _ _ _ => rfl
  have hnumber : Reads (Numeral.map .number) .expr (Starts isNumeralPart) s
      (number.answer ctx s) := (reads_number ctx s).recode fun _ _ _ => rfl
  simp only [operand, Parser.answer_named, Parser.answer_first_cons, Parser.answer_first_nil]
  refine ((hnested.mono fun _ => False.elim).orElse_of_disjoint
    (hnumber.orElse_failed "no match" s) ?_).congr ?_
  · rintro ⟨_, rest, _, rfl, u, rfl, _⟩ hb
    exact Bool.noConfusion (hb.map.starts Numeral.starts)
  · intro w e
    constructor
    · rintro (⟨u, rfl, hu⟩ | ⟨x, hx, rfl⟩)
      · exact .nested hu
      · exact .number hx
    · rintro (hu | hx)
      · exact .inl ⟨_, rfl, hu⟩
      · exact .inr ⟨_, hx, rfl⟩

def PowerGoesOn (F : Language Expr) (rest : Input) : Prop :=
  Starts isNumeralPart rest ∨ (Link [.power, .caret] (Operand F)).Begins rest

def ProductGoesOn (F : Language Expr) (rest : Input) : Prop :=
  PowerGoesOn F rest ∨ (Link [.multiply, .divide] (Power F)).Begins rest

def SumGoesOn (F : Language Expr) (rest : Input) : Prop :=
  ProductGoesOn F rest ∨ (Link [.add, .subtract] (Product F)).Begins rest

theorem reads_exponentiation (h : Inside F ctx s) :
    Reads (Power F) .expr (PowerGoesOn F) s (exponentiation.answer ctx s) := by
  rw [exponentiation, Parser.answer_named]
  refine (reads_chain ctx s Expr.foldRight (fun u rest hs => reads_operand (h.append hs)) ?_
    (not_nil_of_starts Operand.starts) ?_).congr fun w e => rightChain_iff.symm
  · simp [Distinct, Operator.symbol]
  · intro rest hb
    obtain ⟨op, hop, t, rfl, _⟩ := link_begins Operand.starts hb
    revert hop
    cases op <;> simp [Operator.symbol, isNumeralPart, isAsciiDigit]

theorem reads_multiplication (h : Inside F ctx s) :
    Reads (Product F) .expr (ProductGoesOn F) s (multiplication.answer ctx s) := by
  rw [multiplication, Parser.answer_named]
  refine (reads_chain ctx s Expr.foldLeft (fun u rest hs => reads_exponentiation (h.append hs)) ?_
    (not_nil_of_starts Power.starts) ?_).congr fun w e => leftChain_iff.symm
  · simp [Distinct, Operator.symbol]
  · intro rest hb
    obtain ⟨op, hop, t, rfl, ht⟩ := link_begins Power.starts hb
    intro h
    cases h with
    | inl hm =>
      revert hop hm
      cases op <;> simp [Operator.symbol, isNumeralPart, isAsciiDigit]
    | inr hm =>
      obtain ⟨op', hop', t', heq, _⟩ := link_begins Operand.starts hm
      revert hop hop' heq
      cases op <;> cases op' <;> simp [Operator.symbol]
      rintro rfl
      exact Bool.noConfusion ht

theorem reads_addition (h : Inside F ctx s) :
    Reads (Sum F) .expr (SumGoesOn F) s (addition.answer ctx s) := by
  rw [addition, Parser.answer_named]
  refine (reads_chain ctx s Expr.foldLeft (fun u rest hs => reads_multiplication (h.append hs)) ?_
    (not_nil_of_starts Product.starts) ?_).congr fun w e => leftChain_iff.symm
  · simp [Distinct, Operator.symbol]
  · intro rest hb
    obtain ⟨op, hop, t, rfl, ht⟩ := link_begins Product.starts hb
    rintro ((hm | hm) | hm)
    · revert hop hm
      cases op <;> simp [Operator.symbol, isNumeralPart, isAsciiDigit]
    · obtain ⟨op', hop', t', heq, _⟩ := link_begins Operand.starts hm
      revert hop hop' heq
      cases op <;> cases op' <;> simp [Operator.symbol]
    · obtain ⟨op', hop', t', heq, _⟩ := link_begins Power.starts hm
      revert hop hop' heq
      cases op <;> cases op' <;> simp [Operator.symbol]

theorem SumGoesOn.starts {rest : Input} (h : SumGoesOn F rest) : Starts goesOn rest := by
  have hlink : ∀ {ops O}, (∀ w e, O w e → Starts opens w) → (Link ops O).Begins rest →
      Starts goesOn rest := by
    intro ops O hO hb
    obtain ⟨op, _, t, rfl, _⟩ := link_begins hO hb
    cases op <;> rfl
  rcases h with ((hm | hm) | hm) | hm
  · refine hm.mono fun c hc => ?_
    rw [goesOn, Bool.and_eq_true, bne_iff_ne, bne_iff_ne]
    constructor <;> (rintro rfl; exact Bool.noConfusion hc)
  · exact hlink Operand.starts hm
  · exact hlink Power.starts hm
  · exact hlink Product.starts hm

end ParserKit.Formula

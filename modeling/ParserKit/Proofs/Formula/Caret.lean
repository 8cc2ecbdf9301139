import ParserKit.Proofs.Formula.Derivation

namespace ParserKit

def Operator.spellOut : Operator → Operator
  | caret => power
  | op => op

theorem Operator.apply_spellOut (op : Operator) (x y : Float) :
    op.spellOut.apply x y = op.apply x y := by
  cases op <;> rfl

namespace Expr

def spellOutNode : Expr → Expr
  | binary op l r => binary op.spellOut l r
  | e => e

def spellOut : Expr → Expr := rewrite spellOutNode

@[simp] theorem spellOut_number (x : Float) : (number x).spellOut = number x := rfl

@[simp] theorem spellOut_binary (op : Operator) (l r : Expr) :
    (binary op l r).spellOut = binary op.spellOut l.spellOut r.spellOut := rfl

@[simp] theorem spellOut_call (name : String) (args : List Expr) :
    (call name args).spellOut = call name (args.map spellOut) := by
  rw [spellOut, rewrite_eq]
  rfl

@[simp] theorem spellOut_reference (address : String) :
    (reference address).spellOut = reference address := rfl

theorem value_spellOut (e : Expr) : e.spellOut.value = e.value := by
  refine value_rewrite (fun e => ?_) (fun e xs => ?_) e
  · cases e <;> rfl
  · cases e with
    | binary op l r =>
      rcases xs with _ | ⟨x, _ | ⟨y, _ | ⟨z, xs⟩⟩⟩
      case cons.cons.nil => exact op.apply_spellOut x y
      all_goals rfl
    | _ => rfl

end Expr

namespace Formula

open Text ParserKit.Language

/-- A text with two stars for each caret. -/
def spellOut (s : Input) : Input := s.flatMap fun c => if c = '^' then ['*', '*'] else [c]

@[simp] theorem spellOut_nil : spellOut [] = [] := rfl

@[simp] theorem spellOut_caret (s : Input) : spellOut ('^' :: s) = '*' :: '*' :: spellOut s := rfl

@[simp] theorem spellOut_cons {c : Char} (h : c ≠ '^') (s : Input) :
    spellOut (c :: s) = c :: spellOut s := by
  rw [spellOut, List.flatMap_cons, if_neg h]
  rfl

@[simp] theorem spellOut_append (s t : Input) : spellOut (s ++ t) = spellOut s ++ spellOut t :=
  List.flatMap_append

theorem spellOut_symbol (op : Operator) :
    spellOut op.symbol.toList = op.spellOut.symbol.toList := by
  cases op <;> decide

theorem cons_of_spellOut {u t : Input} {c : Char} (h : spellOut u = c :: t) :
    (∃ v, u = c :: v ∧ c ≠ '^' ∧ spellOut v = t) ∨
      (∃ v, u = '^' :: v ∧ c = '*' ∧ t = '*' :: spellOut v) := by
  cases u with
  | nil => cases h
  | cons d u =>
    by_cases hd : d = '^'
    · subst hd
      obtain ⟨rfl, rfl⟩ := List.cons.inj h
      exact .inr ⟨u, rfl, rfl, rfl⟩
    · rw [spellOut_cons hd] at h
      obtain ⟨rfl, rfl⟩ := List.cons.inj h
      exact .inl ⟨u, rfl, hd, rfl⟩

theorem cons_of_spellOut_of_ne {u t : Input} {c : Char} (hc : c ≠ '*') (h : spellOut u = c :: t) :
    ∃ v, u = c :: v ∧ spellOut v = t := by
  obtain ⟨v, hv, _, ht⟩ | ⟨_, _, hstar, _⟩ := cons_of_spellOut h
  · exact ⟨v, hv, ht⟩
  · exact absurd hstar hc

theorem nil_of_spellOut {u : Input} (h : spellOut u = []) : u = [] := by
  cases u with
  | nil => rfl
  | cons c u =>
    by_cases hc : c = '^'
    · subst hc
      cases h
    · rw [spellOut_cons hc] at h
      cases h

theorem eq_of_spellOut {u w : Input} (h : spellOut u = w) (hw : '*' ∉ w) : u = w := by
  induction w generalizing u with
  | nil => exact nil_of_spellOut h
  | cons c w ih =>
    rw [List.mem_cons, not_or] at hw
    obtain ⟨v, rfl, hv⟩ := cons_of_spellOut_of_ne (Ne.symm hw.1) h
    rw [ih hv hw.2]

def isStar (c : Char) : Bool := c == '*'

theorem append_of_spellOut {u x y : Input} (h : spellOut u = x ++ y)
    (hxy : ¬ Ends isStar x ∨ ¬ Starts isStar y) :
    ∃ v w, u = v ++ w ∧ spellOut v = x ∧ spellOut w = y := by
  induction u generalizing x with
  | nil =>
    obtain ⟨rfl, rfl⟩ := List.append_eq_nil_iff.1 h.symm
    exact ⟨[], [], rfl, rfl, rfl⟩
  | cons c u ih =>
    by_cases hc : c = '^'
    · subst hc
      rw [spellOut_caret, List.cons_eq_append_iff] at h
      obtain ⟨rfl, rfl⟩ | ⟨x, rfl, h⟩ := h
      · exact ⟨[], '^' :: u, rfl, rfl, rfl⟩
      rw [List.cons_eq_append_iff] at h
      obtain ⟨rfl, rfl⟩ | ⟨x, rfl, h⟩ := h
      · -- The cut would be between the two stars of a caret.
        exact absurd rfl (hxy.resolve_left fun hx => hx rfl)
      · obtain ⟨v, w, rfl, rfl, hw⟩ := ih h (hxy.imp_left (mt (Ends.append · ['*', '*'])))
        exact ⟨'^' :: v, w, rfl, rfl, hw⟩
    · rw [spellOut_cons hc, List.cons_eq_append_iff] at h
      obtain ⟨rfl, rfl⟩ | ⟨x, rfl, h⟩ := h
      · exact ⟨[], c :: u, rfl, rfl, spellOut_cons hc u⟩
      · obtain ⟨v, w, rfl, rfl, hw⟩ := ih h (hxy.imp_left (mt (Ends.append · [c])))
        exact ⟨c :: v, w, rfl, spellOut_cons hc v, hw⟩

theorem star_of_spellOut {u : Input} (h : spellOut u = ['*']) : u = ['*'] := by
  obtain ⟨v, rfl, _, hv⟩ | ⟨v, rfl, _, hv⟩ := cons_of_spellOut h
  · rw [nil_of_spellOut hv]
  · cases hv

theorem symbol_of_spellOut {u : Input} {op : Operator} (h : spellOut u = op.symbol.toList) :
    ∃ op' : Operator, u = op'.symbol.toList ∧ op'.spellOut = op := by
  cases op with
  | multiply => exact ⟨.multiply, star_of_spellOut h, rfl⟩
  | power =>
    obtain ⟨v, rfl, _, hv⟩ | ⟨v, rfl, _, hv⟩ := cons_of_spellOut h
    · rw [star_of_spellOut hv]
      exact ⟨.power, rfl, rfl⟩
    · rw [nil_of_spellOut (List.cons.inj hv).2.symm]
      exact ⟨.caret, rfl, rfl⟩
  | caret =>
    obtain ⟨_, _, hc, _⟩ | ⟨_, _, hc, _⟩ := cons_of_spellOut h
    · exact absurd rfl hc
    · exact absurd hc (by decide)
  | add => exact ⟨.add, eq_of_spellOut h (by decide), rfl⟩
  | subtract => exact ⟨.subtract, eq_of_spellOut h (by decide), rfl⟩
  | divide => exact ⟨.divide, eq_of_spellOut h (by decide), rfl⟩

theorem not_mem_of_class {f : Char → Bool} {w : Input} (hw : ∀ c ∈ w, f c = true) {c : Char}
    (hc : f c = false) : c ∉ w := fun hmem => by
  rw [hw c hmem] at hc
  cases hc

theorem spellOut_eq_self {w : Input} (h : '^' ∉ w) : spellOut w = w := by
  induction w with
  | nil => rfl
  | cons c w ih =>
    rw [List.mem_cons, not_or] at h
    rw [spellOut_cons (Ne.symm h.1), ih h.2]

theorem isStar_eq_false {f : Char → Bool} (hf : f '*' = false) (c : Char) (hc : f c = true) :
    isStar c = false := by
  rw [isStar, beq_eq_false_iff_ne]
  rintro rfl
  rw [hf] at hc
  cases hc

theorem not_ends_star {w : Input} (h : Ends closes w) : ¬ Ends isStar w :=
  Starts.not_starts (isStar_eq_false rfl) h

theorem not_starts_star {w : Input} (h : Starts opens w) : ¬ Starts isStar w :=
  h.not_starts (isStar_eq_false rfl)

theorem link_of_spellOut {u x y : Input} {op : Operator}
    (h : spellOut u = x ++ (op.symbol.toList ++ y)) (hx : Ends closes x) (hy : Starts opens y) :
    ∃ v, ∃ op' : Operator, ∃ w, u = v ++ (op'.symbol.toList ++ w) ∧ spellOut v = x ∧
      op'.spellOut = op ∧ spellOut w = y := by
  obtain ⟨v, t, rfl, hv, ht⟩ := append_of_spellOut h (.inl (not_ends_star hx))
  obtain ⟨o, w, rfl, ho, hw⟩ := append_of_spellOut ht (.inr (not_starts_star hy))
  obtain ⟨op', rfl, hop⟩ := symbol_of_spellOut ho
  exact ⟨v, op', w, rfl, hv, hop, hw⟩

theorem brackets_of_spellOut {u w : Input} (h : spellOut u = '(' :: (w ++ [')'])) :
    ∃ v, u = '(' :: (v ++ [')']) ∧ spellOut v = w := by
  obtain ⟨t, rfl, ht⟩ := cons_of_spellOut_of_ne (by decide) h
  obtain ⟨v, r, rfl, hv, hr⟩ := append_of_spellOut ht (.inr (by decide))
  exact ⟨v, by rw [eq_of_spellOut hr (by decide)], hv⟩

section

variable {α : Type} {ops : List Operator} {F F' O O' : Language Expr}

def SpellsInto (g : α → α) (L M : Language α) : Prop := ∀ w a, L w a → M (spellOut w) (g a)

def SpelledFrom (g : α → α) (L M : Language α) : Prop :=
  ∀ u a, L (spellOut u) a → ∃ b, M u b ∧ g b = a

def Paired (ops : List Operator) : Prop := ∀ op : Operator, op.spellOut ∈ ops ↔ op ∈ ops

theorem LeftChain.spellsInto (hops : Paired ops) (h : SpellsInto Expr.spellOut O O') :
    SpellsInto Expr.spellOut (LeftChain ops O) (LeftChain ops O') := by
  intro w e hw
  induction hw with
  | operand hw => exact .operand (h _ _ hw)
  | @link _ _ op _ _ _ hop hv ih =>
    rw [spellOut_append, spellOut_append, spellOut_symbol, Expr.spellOut_binary]
    exact .link ih ((hops op).2 hop) (h _ _ hv)

theorem RightChain.spellsInto (hops : Paired ops) (h : SpellsInto Expr.spellOut O O') :
    SpellsInto Expr.spellOut (RightChain ops O) (RightChain ops O') := by
  intro w e hw
  induction hw with
  | operand hw => exact .operand (h _ _ hw)
  | @link _ _ op _ _ hu hop _ ih =>
    rw [spellOut_append, spellOut_append, spellOut_symbol, Expr.spellOut_binary]
    exact .link (h _ _ hu) ((hops op).2 hop) ih

theorem LeftChain.spelledFrom (hops : Paired ops) (hends : ∀ w e, O w e → Ends closes w)
    (hstarts : ∀ w e, O w e → Starts opens w) (h : SpelledFrom Expr.spellOut O O') :
    SpelledFrom Expr.spellOut (LeftChain ops O) (LeftChain ops O') := by
  intro u e hu
  generalize hw : spellOut u = w at hu
  induction hu generalizing u with
  | operand hu =>
    subst hw
    obtain ⟨a, ha, rfl⟩ := h _ _ hu
    exact ⟨a, .operand ha, rfl⟩
  | @link x y op a b hx hop hy ih =>
    obtain ⟨v, op, t, rfl, hv, rfl, rfl⟩ :=
      link_of_spellOut hw (LeftChain.ends hends x a hx) (hstarts y b hy)
    obtain ⟨a, ha, rfl⟩ := ih v hv
    obtain ⟨b, hb, rfl⟩ := h _ _ hy
    exact ⟨.binary op a b, .link ha ((hops op).1 hop) hb, rfl⟩

theorem RightChain.spelledFrom (hops : Paired ops) (hends : ∀ w e, O w e → Ends closes w)
    (hstarts : ∀ w e, O w e → Starts opens w) (h : SpelledFrom Expr.spellOut O O') :
    SpelledFrom Expr.spellOut (RightChain ops O) (RightChain ops O') := by
  intro u e hu
  generalize hw : spellOut u = w at hu
  induction hu generalizing u with
  | operand hu =>
    subst hw
    obtain ⟨a, ha, rfl⟩ := h _ _ hu
    exact ⟨a, .operand ha, rfl⟩
  | @link x y op a b hx hop hy ih =>
    obtain ⟨v, op, t, rfl, rfl, rfl, ht⟩ :=
      link_of_spellOut hw (hends x a hx) (RightChain.starts hstarts y b hy)
    obtain ⟨a, ha, rfl⟩ := h _ _ hx
    obtain ⟨b, hb, rfl⟩ := ih t ht
    exact ⟨.binary op a b, .link ha ((hops op).1 hop) hb, rfl⟩

theorem paired_power : Paired [.power, .caret] := by
  intro op
  cases op <;> decide

theorem paired_product : Paired [.multiply, .divide] := by
  intro op
  cases op <;> decide

theorem paired_sum : Paired [.add, .subtract] := by
  intro op
  cases op <;> decide

theorem Operand.spellsInto (h : SpellsInto Expr.spellOut F F') :
    SpellsInto Expr.spellOut (Operand F) (Operand F') := by
  intro w e hw
  cases hw with
  | nested hw =>
    rw [spellOut_cons (by decide), spellOut_append]
    exact .nested (h _ _ hw)
  | number hx =>
    rw [spellOut_eq_self (not_mem_of_class hx.1.isPlain rfl)]
    exact .number hx

theorem Operand.spelledFrom (h : SpelledFrom Expr.spellOut F F') :
    SpelledFrom Expr.spellOut (Operand F) (Operand F') := by
  intro u e hu
  generalize hw : spellOut u = w at hu
  cases hu with
  | nested hu =>
    obtain ⟨v, rfl, rfl⟩ := brackets_of_spellOut hw
    obtain ⟨a, ha, rfl⟩ := h _ _ hu
    exact ⟨a, .nested ha, rfl⟩
  | number hx =>
    rw [eq_of_spellOut hw (not_mem_of_class hx.1.isPlain rfl)]
    exact ⟨_, .number hx, rfl⟩

theorem Listed.spellsInto (h : SpellsInto Expr.spellOut F F') :
    SpellsInto (List.map Expr.spellOut) (F.Listed ',') (F'.Listed ',') := by
  intro w es hw
  induction hw with
  | last hw => exact .last (h _ _ hw)
  | cons hu _ ih =>
    rw [spellOut_append, spellOut_cons (by decide)]
    exact .cons (h _ _ hu) ih

theorem Listed.spelledFrom (h : SpelledFrom Expr.spellOut F F') :
    SpelledFrom (List.map Expr.spellOut) (F.Listed ',') (F'.Listed ',') := by
  intro u es hu
  generalize hw : spellOut u = w at hu
  induction hu generalizing u with
  | last hu =>
    subst hw
    obtain ⟨a, ha, rfl⟩ := h _ _ hu
    exact ⟨[a], .last ha, rfl⟩
  | cons hx hy ih =>
    obtain ⟨v, t, rfl, rfl, ht⟩ := append_of_spellOut hw (.inr Bool.noConfusion)
    obtain ⟨r, rfl, hr⟩ := cons_of_spellOut_of_ne (by decide) ht
    obtain ⟨a, ha, rfl⟩ := h _ _ hx
    obtain ⟨as, has, rfl⟩ := ih r hr
    exact ⟨a :: as, .cons ha has, rfl⟩

theorem Arguments.spellsInto (h : SpellsInto Expr.spellOut F F') :
    SpellsInto (List.map Expr.spellOut) (Arguments F) (Arguments F') := by
  intro w es hw
  cases hw with
  | none => exact .none
  | some hw => exact .some (Listed.spellsInto h _ _ hw)

theorem Arguments.spelledFrom (h : SpelledFrom Expr.spellOut F F') :
    SpelledFrom (List.map Expr.spellOut) (Arguments F) (Arguments F') := by
  intro u es hu
  generalize hw : spellOut u = w at hu
  cases hu with
  | none => exact ⟨[], nil_of_spellOut hw ▸ .none, rfl⟩
  | some hu =>
    subst hw
    obtain ⟨as, has, rfl⟩ := Listed.spelledFrom h _ _ hu
    exact ⟨as, .some has, rfl⟩

theorem Call.spellsInto (h : SpellsInto Expr.spellOut F F') :
    SpellsInto Expr.spellOut (Call F) (Call F') := by
  intro w e hw
  obtain @⟨n, w, es, hn, hw⟩ := hw
  rw [spellOut_append, spellOut_cons (by decide), spellOut_append, Expr.spellOut_call,
    spellOut_eq_self (not_mem_of_class hn.isNamePart rfl)]
  exact .mk hn (Arguments.spellsInto h _ _ hw)

theorem Call.spelledFrom (h : SpelledFrom Expr.spellOut F F') :
    SpelledFrom Expr.spellOut (Call F) (Call F') := by
  intro u e hu
  generalize hw : spellOut u = w at hu
  obtain @⟨n, w, es, hn, hargs⟩ := hu
  obtain ⟨v, t, rfl, hv, ht⟩ := append_of_spellOut hw (.inr Bool.noConfusion)
  obtain ⟨w, rfl, rfl⟩ := brackets_of_spellOut ht
  obtain ⟨as, has, rfl⟩ := Arguments.spelledFrom h _ _ hargs
  rw [eq_of_spellOut hv (not_mem_of_class hn.isNamePart rfl)]
  exact ⟨.call (String.ofList n) as, .mk hn has, Expr.spellOut_call _ as⟩

theorem Reference.spellsInto : SpellsInto Expr.spellOut Reference Reference := by
  intro w e hw
  rw [spellOut_eq_self (not_mem_of_class hw.isNamePart rfl)]
  cases hw with
  | mk hu hv => exact .mk hu hv

theorem Reference.spelledFrom : SpelledFrom Expr.spellOut Reference Reference := by
  intro u e hu
  rw [← eq_of_spellOut rfl (not_mem_of_class hu.isNamePart rfl)] at hu
  cases hu with
  | mk hu hv => exact ⟨_, .mk hu hv, rfl⟩

theorem Sum.spellsInto (h : SpellsInto Expr.spellOut F F') :
    SpellsInto Expr.spellOut (Sum F) (Sum F') :=
  LeftChain.spellsInto paired_sum <| LeftChain.spellsInto paired_product <|
    RightChain.spellsInto paired_power (Operand.spellsInto h)

theorem Sum.spelledFrom (h : SpelledFrom Expr.spellOut F F') :
    SpelledFrom Expr.spellOut (Sum F) (Sum F') :=
  LeftChain.spelledFrom paired_sum Product.ends Product.starts <|
    LeftChain.spelledFrom paired_product Power.ends Power.starts <|
      RightChain.spelledFrom paired_power Operand.ends Operand.starts (Operand.spelledFrom h)

end

theorem Derives.spellsInto : SpellsInto Expr.spellOut Derives Derives := by
  intro w e hw
  refine hw.least (G := fun w e => Derives (spellOut w) e.spellOut) ?_
  rintro w e (hw | hw | hw)
  · exact .sum (Sum.spellsInto (fun _ _ => id) w e hw)
  · exact .call (Call.spellsInto (fun _ _ => id) w e hw)
  · exact .reference (Reference.spellsInto w e hw)

theorem Derives.spelledFrom : SpelledFrom Expr.spellOut Derives Derives := by
  intro u e hu
  refine hu.least (G := fun w e => ∀ u, spellOut u = w → ∃ a, Derives u a ∧ a.spellOut = e) ?_ u rfl
  rintro _ e hw u rfl
  obtain hw | hw | hw := hw
  · obtain ⟨a, ha, hae⟩ := Sum.spelledFrom (fun u _ h => h u rfl) u e hw
    exact ⟨a, .sum ha, hae⟩
  · obtain ⟨a, ha, hae⟩ := Call.spelledFrom (fun u _ h => h u rfl) u e hw
    exact ⟨a, .call ha, hae⟩
  · obtain ⟨a, ha, hae⟩ := Reference.spelledFrom u e hw
    exact ⟨a, .reference ha, hae⟩

variable {s : Input}

theorem Derives.split {w rest : Input} {e : Expr} (hs : spellOut s = w ++ rest)
    (hw : Derives w e) : ∃ v t a, s = v ++ t ∧ spellOut v = w ∧ Derives v a := by
  obtain ⟨v, t, rfl, rfl, _⟩ := append_of_spellOut hs (.inl (not_ends_star (Derives.ends w e hw)))
  obtain ⟨a, ha, _⟩ := Derives.spelledFrom v e hw
  exact ⟨v, t, a, rfl, rfl, ha⟩

theorem begins_of_spellOut (h : Language.Begins Derives (spellOut s)) :
    Language.Begins Derives s := by
  obtain ⟨w, rest, e, hs, hw⟩ := h
  obtain ⟨v, t, a, hs, _, ha⟩ := hw.split hs
  exact ⟨v, t, a, hs, ha⟩

theorem longest_spellOut {w : Input} {e : Expr} (h : Language.Longest Derives s w e) :
    Language.Longest Derives (spellOut s) (spellOut w) e.spellOut := by
  refine ⟨Derives.spellsInto w e h.mem, ?_, ?_⟩
  · obtain ⟨rest, hs⟩ := h.begins
    exact ⟨spellOut rest, by rw [← spellOut_append, hs]⟩
  · rintro w' e' hw' ⟨rest, hrest⟩
    obtain ⟨v, t, a, hs, rfl, ha⟩ := hw'.split hrest.symm
    have hv : v <+: s := ⟨t, hs.symm⟩
    obtain ⟨r, rfl⟩ := List.prefix_of_prefix_length_le hv h.begins (h.longest v a ha hv)
    rw [spellOut_append, List.length_append]
    exact Nat.le_add_right _ _

/-- A text is read and evaluated the same with its carets spelled out. -/
theorem carets_spell_powers (debug : Bool) (s : Input) :
    ((∃ e rest, (expression.runLibrary debug s).reply = .matched (.expr e) rest ∧
        (expression.runLibrary debug (spellOut s)).reply =
          .matched (.expr e.spellOut) (spellOut rest)) ∨
      ((expression.runLibrary debug s).reply = .failed "no match" s ∧
        (expression.runLibrary debug (spellOut s)).reply = .failed "no match" (spellOut s))) ∧
    ((∃ x, evaluate (String.ofList s) = .ok (.float x) ∧
        evaluate (String.ofList (spellOut s)) = .ok (.float x)) ∨
      (evaluate (String.ofList s) = .error (.noMatch "no match") ∧
        evaluate (String.ofList (spellOut s)) = .error (.noMatch "no match"))) := by
  by_cases hs : Language.Begins Derives s
  · obtain ⟨w, rest, e, rfl, hw⟩ := exists_longest hs
    have hw' := longest_spellOut hw
    have hs' := spellOut_append w rest
    refine ⟨.inl ⟨e, rest, reply_of_longest rfl hw, reply_of_longest hs' hw'⟩,
      .inl ⟨e.value, evaluate_of_longest rfl hw, ?_⟩⟩
    rw [evaluate_of_longest hs' hw', Expr.value_spellOut]
  · have hs' : ¬ Language.Begins Derives (spellOut s) := mt begins_of_spellOut hs
    exact ⟨.inr ⟨reply_of_not_begins hs, reply_of_not_begins hs'⟩,
      .inr ⟨evaluate_of_not_begins hs, evaluate_of_not_begins hs'⟩⟩

end Formula

end ParserKit

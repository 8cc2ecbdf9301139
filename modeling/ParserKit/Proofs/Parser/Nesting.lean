import ParserKit.Grammar.Library
import ParserKit.Proofs.Parser.Answer

namespace ParserKit

namespace Rule

def opens : Rule → Char → Bool
  | formula, c => c == '('
  | json, c => c == '[' || c == '\x7b'
  | custom _, _ => false

def depth (key : Rule) (s : Input) : Nat := s.countP key.opens

theorem depth_le_nesting (key : Rule) (s : Input) : key.depth s ≤ nesting s := by
  refine List.countP_mono_left fun c _ h => ?_
  cases key with
  | formula =>
    have hc : (c == '(') = true := h
    rw [hc, Bool.true_or, Bool.true_or]
  | json =>
    have hc : (c == '[' || c == '\x7b') = true := h
    rw [Bool.or_assoc, hc, Bool.or_true]
  | custom name => exact Bool.noConfusion h

def Below (key : Rule) (rest s : Input) : Prop :=
  ∃ u, s = u ++ rest ∧ ∃ c ∈ u, key.opens c = true

theorem Below.depth_lt {key : Rule} {rest s : Input} (h : key.Below rest s) :
    key.depth rest < key.depth s := by
  obtain ⟨u, rfl, hu⟩ := h
  rw [depth, depth, List.countP_append]
  exact Nat.lt_add_of_pos_left (List.countP_pos_iff.2 hu)

theorem Below.suffix {key : Rule} {rest s : Input} (h : key.Below rest s) :
    rest <:+ s ∧ rest.length < s.length := by
  obtain ⟨u, rfl, c, hc, _⟩ := h
  refine ⟨List.suffix_append u rest, ?_⟩
  rw [List.length_append]
  exact Nat.lt_add_of_pos_left (List.length_pos_of_mem hc)

end Rule

namespace Parser

def context (rules : Rules) (debug : Bool) : Nat → Context
  | 0 => ⟨debug, fun _ => Step.raised .tooDeep⟩
  | n + 1 => ⟨debug, fun key => run rules debug n (rules key)⟩

theorem reply_run (rules : Rules) (debug : Bool) (n : Nat) (p : Parser) (s : Input) :
    (p.run rules debug n s).reply = p.answer (context rules debug n) s := by
  cases n <;> rfl

theorem enter_context_succ (rules : Rules) (debug : Bool) (n : Nat) (key : Rule) (s : Input) :
    ((context rules debug (n + 1)).enter key s).reply =
      (rules key).answer (context rules debug n) s := reply_run rules debug n (rules key) s

end Parser

def Within (P : Input → Reply Value → Prop) (key : Rule) (ctx : Context) (s : Input) : Prop :=
  ∀ u rest, s = u ++ rest → (∃ c ∈ u, key.opens c = true) → P rest (ctx.enter key rest).reply

variable {P : Input → Reply Value → Prop} {key : Rule} {ctx : Context} {s : Input}

theorem Within.append {u rest : Input} (h : Within P key ctx s) (hs : s = u ++ rest) :
    Within P key ctx rest := by
  rintro u' rest' hrest ⟨c, hc, ho⟩
  refine h (u ++ u') rest' ?_ ⟨c, List.mem_append_right u hc, ho⟩
  rw [hs, hrest, List.append_assoc]

theorem within_context (h : ∀ ctx s, Within P key ctx s → P s ((Library.rules key).answer ctx s))
    (debug : Bool) {n : Nat} (hn : key.depth s ≤ n) :
    Within P key (Parser.context Library.rules debug n) s := by
  induction n generalizing s with
  | zero =>
    intro u rest hs hu
    have hlt := Rule.Below.depth_lt ⟨u, hs, hu⟩
    omega
  | succ n ih =>
    intro u rest hs hu
    have hlt := Rule.Below.depth_lt ⟨u, hs, hu⟩
    rw [Parser.enter_context_succ]
    exact h _ _ (ih (by omega))

end ParserKit

import ParserKit.Proofs.Expr.Evaluation
import ParserKit.Proofs.Formula.Reading

namespace ParserKit.Formula

open Text ParserKit.Language

variable {F O : Language Expr} {ops : List Operator}

theorem Derives.least {G : Language Expr}
    (h : ∀ w e, (Sum G).union ((Call G).union Reference) w e → G w e) {w : Input} {e : Expr}
    (hw : Derives w e) : G w e := by
  -- One motive for each layer: the same layer, over the other language.
  refine @Derives.rec (fun w e _ => G w e) (fun w e _ => Sum G w e) (fun w e _ => Call G w e)
    (fun w e _ => Product G w e) (fun w es _ => Arguments G w es) (fun w e _ => Power G w e)
    (fun w es _ => G.Listed ',' w es) (fun w e _ => Operand G w e)
    ?sum ?call ?reference ?product ?sumLink ?mk ?power ?productLink ?none ?some ?operand ?powerLink
    ?last ?cons ?nested ?number _ _ hw
  case sum => exact fun _ ih => h _ _ (.inl ih)
  case call => exact fun _ ih => h _ _ (.inr (.inl ih))
  case reference => exact fun hw => h _ _ (.inr (.inr hw))
  case product => exact fun _ ih => .operand ih
  case sumLink => exact fun _ hop _ ihu ihv => .link ihu hop ihv
  case mk => exact fun hn _ ih => .mk hn ih
  case power => exact fun _ ih => .operand ih
  case productLink => exact fun _ hop _ ihu ihv => .link ihu hop ihv
  case none => exact .none
  case some => exact fun _ ih => .some ih
  case operand => exact fun _ ih => .operand ih
  case powerLink => exact fun _ hop _ ihu ihv => .link ihu hop ihv
  case last => exact fun _ ih => .last ih
  case cons => exact fun _ _ ihu ihv => .cons ihu ihv
  case nested => exact fun _ ih => .nested ih
  case number => exact fun hx => .number hx

def closes (c : Char) : Bool := isAsciiDigit c || c == ')'

theorem Digits.ends {a : Input} (ha : Digits a) : Ends isAsciiDigit a := by
  have h : Starts isAsciiDigit (a.reverse ++ []) := by
    refine starts_of_cons (by simpa using ha.1) fun c hc => ?_
    exact ha.2 c (List.mem_reverse.1 hc)
  rwa [List.append_nil] at h

theorem ends_closes {w : Input} (h : Ends isAsciiDigit w) : Ends closes w :=
  Starts.mono (fun c hc => by rw [closes, hc, Bool.true_or]) h

theorem Numeral.ends (w : Input) (x : Float) (h : Numeral w x) : Ends isAsciiDigit w := by
  cases h.1 with
  | whole _ ha => exact ha.ends.append _
  | @decimal sign a b _ _ hb => exact ((hb.ends.append ['.']).append a).append sign

theorem Operand.ends (w : Input) (e : Expr) (h : Operand F w e) : Ends closes w := by
  cases h with
  | @nested w _ _ => exact ((ends_singleton closes ')').2 rfl).append ('(' :: w)
  | number hx => exact ends_closes (Numeral.ends _ _ hx)

theorem LeftChain.ends {f : Char → Bool} (hO : ∀ w e, O w e → Ends f w) (w : Input) (e : Expr)
    (h : LeftChain ops O w e) : Ends f w := by
  cases h with
  | operand hw => exact hO _ _ hw
  | link _ _ hv => exact ((hO _ _ hv).append _).append _

theorem RightChain.ends {f : Char → Bool} (hO : ∀ w e, O w e → Ends f w) (w : Input) (e : Expr)
    (h : RightChain ops O w e) : Ends f w := by
  induction h with
  | operand hw => exact hO _ _ hw
  | link _ _ _ ih => exact (ih.append _).append _

theorem Power.ends : ∀ w e, Power F w e → Ends closes w := RightChain.ends Operand.ends

theorem Product.ends : ∀ w e, Product F w e → Ends closes w := LeftChain.ends Power.ends

theorem Sum.ends : ∀ w e, Sum F w e → Ends closes w := LeftChain.ends Product.ends

theorem Derives.ends (w : Input) (e : Expr) (h : Derives w e) : Ends closes w := by
  cases h with
  | sum hw => exact Sum.ends w e hw
  | call hw =>
    obtain @⟨n, w, es, _, _⟩ := hw
    exact (((ends_singleton closes ')').2 rfl).append ('(' :: w)).append n
  | reference hw =>
    obtain ⟨_, hv⟩ := hw
    exact ends_closes (hv.ends.append _)

theorem LeftChain.standard (hO : ∀ w e, O w e → e.Standard) (w : Input) (e : Expr)
    (h : LeftChain ops O w e) : e.Standard := by
  induction h with
  | operand hw => exact hO _ _ hw
  | link _ _ hv ih => exact Expr.standard_binary.2 ⟨ih, hO _ _ hv⟩

theorem RightChain.standard (hO : ∀ w e, O w e → e.Standard) (w : Input) (e : Expr)
    (h : RightChain ops O w e) : e.Standard := by
  induction h with
  | operand hw => exact hO _ _ hw
  | link hu _ _ ih => exact Expr.standard_binary.2 ⟨hO _ _ hu, ih⟩

theorem Operand.standard (hF : ∀ w e, F w e → e.Standard) (w : Input) (e : Expr)
    (h : Operand F w e) : e.Standard := by
  cases h with
  | nested hw => exact hF _ _ hw
  | number _ => exact Expr.standard_number _

theorem Listed.standard (hF : ∀ w e, F w e → e.Standard) {w : Input} {es : List Expr}
    (h : F.Listed ',' w es) : ∀ e ∈ es, e.Standard := by
  induction h with
  | last hw => exact List.forall_mem_singleton.2 (hF _ _ hw)
  | cons hu _ ih => exact List.forall_mem_cons.2 ⟨hF _ _ hu, ih⟩

theorem Call.standard (hF : ∀ w e, F w e → e.Standard) (w : Input) (e : Expr) (h : Call F w e) :
    e.Standard := by
  obtain ⟨_, hw⟩ := h
  rw [Expr.standard_call]
  cases hw with
  | none => exact List.forall_mem_nil _
  | some hw => exact Listed.standard hF hw

theorem Derives.standard {w : Input} {e : Expr} (h : Derives w e) : e.Standard := by
  refine h.least (G := fun _ e => e.Standard) ?_
  rintro w e (hw | hw | hw)
  · exact LeftChain.standard (LeftChain.standard (RightChain.standard
      (Operand.standard fun _ _ => id))) w e hw
  · exact Call.standard (fun _ _ => id) w e hw
  · cases hw with
    | mk => exact Expr.standard_reference _

section

variable {debug : Bool} {s : Input}

theorem reply_of_longest {w rest : Input} {e : Expr} (hs : s = w ++ rest)
    (h : Language.Longest Derives s w e) :
    (expression.runLibrary debug s).reply = .matched (.expr e) rest :=
  (reads_runLibrary debug s).matched_iff.2 ⟨w, e, hs, rfl, h⟩

theorem reply_of_not_begins (h : ¬ Language.Begins Derives s) :
    (expression.runLibrary debug s).reply = .failed "no match" s := by
  obtain ⟨reason, rest, hr⟩ := (reads_runLibrary debug s).exists_failed h
  rw [hr]
  rw [Parser.runLibrary, Parser.reply_run, expression, Parser.answer_named] at hr
  obtain ⟨rfl, rfl⟩ := Parser.first_failed _ hr
  rfl

theorem exists_longest (h : Language.Begins Derives s) :
    ∃ w rest e, s = w ++ rest ∧ Language.Longest Derives s w e := by
  have hr := reads_runLibrary false s
  cases hreply : (expression.runLibrary false s).reply with
  | matched v rest =>
    obtain ⟨w, e, hs, _, hw⟩ := hr.matched_iff.1 hreply
    exact ⟨w, rest, e, hs, hw⟩
  | failed reason rest =>
    rw [hreply] at hr
    exact absurd h hr.not_begins
  | raised fault =>
    rw [hreply] at hr
    cases hr

theorem evaluate_of_longest {w rest : Input} {e : Expr} (hs : s = w ++ rest)
    (h : Language.Longest Derives s w e) :
    evaluate (String.ofList s) = .ok (.float e.value) := by
  rw [evaluate, parse, Parser.parse, String.toList_ofList, reply_of_longest hs h]
  show e.evaluate.mapError _ = _
  rw [Expr.evaluate_eq h.mem.standard]
  rfl

theorem evaluate_of_not_begins (h : ¬ Language.Begins Derives s) :
    evaluate (String.ofList s) = .error (.noMatch "no match") := by
  rw [evaluate, parse, Parser.parse, String.toList_ofList, reply_of_not_begins h]
  rfl

end

end ParserKit.Formula

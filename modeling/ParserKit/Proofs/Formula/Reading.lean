import ParserKit.Proofs.Formula.Layers

namespace ParserKit.Formula

open Text ParserKit.Language

variable {F : Language Expr} {ctx : Context} {s : Input}

def isNamePart (c : Char) : Bool := isAsciiLetter c || isAsciiDigit c

def startsFormula (c : Char) : Bool := opens c || isAsciiLetter c

theorem toNat_of_isAsciiLetter {c : Char} (h : isAsciiLetter c = true) : 65 ≤ c.toNat := by
  simp only [isAsciiLetter, Bool.or_eq_true, Bool.and_eq_true, decide_eq_true_eq, Char.le_def,
    UInt32.le_iff_toNat_le] at h
  rcases h with ⟨h, _⟩ | ⟨h, _⟩
  · exact Nat.le_trans (by decide) h
  · exact h

theorem toNat_of_opens {c : Char} (h : opens c = true) : c.toNat ≤ 57 := by
  simp only [opens, startsNumeral, Bool.or_eq_true, beq_iff_eq] at h
  rcases h with rfl | (rfl | rfl) | h
  · decide
  · decide
  · decide
  · exact (toNat_of_isAsciiDigit h).2

theorem not_starts_letter {s : Input} (h : Starts opens s) : ¬ Starts isAsciiLetter s := by
  cases s with
  | nil => exact id
  | cons c s =>
    intro hl
    have := toNat_of_opens h
    have := toNat_of_isAsciiLetter hl
    omega

theorem opens_of_isAsciiDigit {c : Char} (h : isAsciiDigit c = true) : opens c = true := by
  rw [opens, startsNumeral, h, Bool.or_true, Bool.or_true]

theorem IsName.isNamePart {n : Input} (h : IsName n) : ∀ c ∈ n, isNamePart c = true := by
  obtain ⟨c, v, rfl, hc, hv⟩ := h
  rw [List.forall_mem_cons]
  exact ⟨by rw [Formula.isNamePart, hc, Bool.true_or], hv⟩

theorem Reference.isNamePart {w : Input} {e : Expr} (h : Reference w e) :
    ∀ c ∈ w, isNamePart c = true := by
  obtain ⟨hu, hv⟩ := h
  refine List.forall_mem_append.2 ⟨fun c hc => ?_, fun c hc => ?_⟩
  · rw [Formula.isNamePart, hu.2 c hc, Bool.true_or]
  · rw [Formula.isNamePart, hv.2 c hc, Bool.or_true]

theorem isName_iff {w rest : Input} (hs : ¬ Starts isAsciiDigit (w ++ rest)) :
    IsName w ↔ w ≠ [] ∧ ∀ c ∈ w, isNamePart c = true := by
  constructor
  · intro h
    refine ⟨?_, h.isNamePart⟩
    obtain ⟨c, v, rfl, _⟩ := h
    exact List.cons_ne_nil c v
  · rintro ⟨hne, hw⟩
    cases w with
    | nil => exact absurd rfl hne
    | cons c v =>
      rw [List.forall_mem_cons] at hw
      have hc : isAsciiDigit c = false := Bool.not_eq_true _ ▸ hs
      refine ⟨c, v, rfl, ?_, hw.2⟩
      rw [← hw.1, isNamePart, hc, Bool.or_false]

theorem reads_name (ctx : Context) (s : Input) :
    Reads (.run isNamePart) (fun w => .text (String.ofList w)) (Starts isNamePart) s
      (Parser.alphanumeric.many1.concat.answer ctx s) :=
  (Parser.ofClass_alphanumeric ctx).reads_concat1 s

theorem reads_arguments (h : Inside F ctx s) (hF : ∀ w e, F w e → Starts startsFormula w) :
    Reads ((Arguments F).between '(' ')') (Reads.listCode .expr) (fun _ => False) s
      ((Parser.between (.char '(') (Parser.sepBy (.char ',') nested) (.char ')')).answer ctx
        s) := by
  have hlist : ∀ rest, s = '(' :: rest → Reads (Arguments F) (Reads.listCode .expr)
      (fun rest => Starts goesOn rest ∨ Starts (· == ',') rest ∨ F.Begins rest) rest
      ((Parser.sepBy (.char ',') nested).answer ctx rest) := by
    intro rest hs
    refine (Reads.sepBy (fun u rest' hr => ?_) (fun _ => Bool.noConfusion) (fun _ _ _ => rfl)
      (not_nil_of_starts hF)).congr fun w es => ⟨?_, ?_⟩
    · rw [nested, Parser.answer_rule]
      exact h ('(' :: u) rest' (hs.trans (congrArg _ hr)) ⟨'(', List.mem_cons_self, rfl⟩
    · rintro (hw | ⟨rfl, rfl⟩)
      · exact .some hw
      · exact .none
    · rintro (_ | hw)
      · exact .inr ⟨rfl, rfl⟩
      · exact .inl hw
  refine Reads.between hlist ?_ fun _ _ _ => rfl
  rintro rest (hm | hm | hm)
  · exact Bool.noConfusion hm
  · exact Bool.noConfusion hm
  · exact Bool.noConfusion (hm.starts hF)

theorem reads_functionCall (h : Inside F ctx s) (hF : ∀ w e, F w e → Starts startsFormula w)
    (hs : ¬ Starts isAsciiDigit s) :
    Reads (Call F) .expr (fun _ => False) s (functionCall.answer ctx s) := by
  have hsep : ∀ rest, ((Arguments F).between '(' ')').Begins rest → ¬ Starts isNamePart rest := by
    rintro _ ⟨_, rest, _, rfl, _, rfl, _⟩ hm
    exact Bool.noConfusion hm
  have hpair := (reads_name ctx s).pair_of_sep
    (fun _ rest _ hu _ => reads_arguments (h.append hu) hF) hsep
  have hcode : ∀ es : List Expr, (es.map Value.expr).filterMap expr? = es := fun es => by
    rw [List.filterMap_map]
    exact List.filterMap_some
  have hcall : Reads (((Language.run isNamePart).seq ((Arguments F).between '(' ')')).map
      fun x => .call (String.ofList x.1) x.2) .expr (fun _ => False) s
      (functionCall.answer ctx s) := by
    rw [functionCall, Parser.answer_named, Parser.answer_map]
    refine hpair.apply ?_ fun _ _ _ => rfl
    rintro w ⟨n, es⟩ _
    show Except.ok (Value.expr (.call _ ((es.map Value.expr).filterMap expr?))) = _
    rw [hcode]
    rfl
  refine hcall.congr_begins fun w rest e hw => ?_
  constructor
  · rintro ⟨⟨n, es⟩, ⟨_, _, rfl, ⟨hne, rfl, hn⟩, u, rfl, hu⟩, rfl⟩
    rw [hw, List.append_assoc] at hs
    exact .mk ((isName_iff hs).2 ⟨hne, hn⟩) hu
  · rintro (⟨hn, hu⟩)
    rw [hw, List.append_assoc] at hs
    obtain ⟨hne, hn⟩ := (isName_iff hs).1 hn
    exact ⟨(_, _), ⟨_, _, rfl, ⟨hne, rfl, hn⟩, _, rfl, hu⟩, rfl⟩

theorem reads_reference (ctx : Context) (s : Input) :
    Reads Reference .expr (Starts isAsciiDigit) s (reference.answer ctx s) := by
  have hletters := (Parser.ofClass_satisfy ctx isAsciiLetter "letter").reads_concat1 s
  have hdigits := (Parser.ofClass_satisfy ctx isAsciiDigit "digit").reads_concat1
  have hpair := hletters.pair_of_sep (fun _ rest _ _ _ => hdigits rest) fun rest hb =>
    not_starts_letter ((hb.starts run_starts).mono fun _ => opens_of_isAsciiDigit)
  have hreference : Reads (((Language.run isAsciiLetter).seq (.run isAsciiDigit)).map
      fun x => .reference (String.ofList (x.1 ++ x.2))) .expr (Starts isAsciiDigit) s
      (reference.answer ctx s) := by
    rw [reference, Parser.answer_named, Parser.answer_map]
    refine hpair.apply ?_ fun _ _ _ => rfl
    rintro w ⟨u, v⟩ _
    rw [String.ofList_append]
    rfl
  refine hreference.congr fun w e => ?_
  constructor
  · rintro ⟨⟨_, _⟩, ⟨u, v, rfl, ⟨hu, rfl, hu'⟩, hv, rfl, hv'⟩, rfl⟩
    exact .mk ⟨hu, hu'⟩ ⟨hv, hv'⟩
  · rintro ⟨hu, hv⟩
    exact ⟨(_, _), ⟨_, _, rfl, ⟨hu.1, rfl, hu.2⟩, hv.1, rfl, hv.2⟩, rfl⟩

theorem Call.starts (w : Input) (e : Expr) (h : Call F w e) : Starts isAsciiLetter w := by
  cases h with
  | mk hn _ =>
    obtain ⟨c, v, rfl, hc, _⟩ := hn
    exact hc

theorem Reference.starts (w : Input) (e : Expr) (h : Reference w e) : Starts isAsciiLetter w := by
  cases h with
  | mk hu _ => exact starts_of_cons hu.1 hu.2

theorem Derives.starts (w : Input) (e : Expr) (h : Derives w e) : Starts startsFormula w := by
  have hletter : Starts isAsciiLetter w → Starts startsFormula w := fun h =>
    h.mono fun c hc => by rw [startsFormula, hc, Bool.or_true]
  cases h with
  | sum h => exact (Sum.starts w e h).mono fun c hc => by rw [startsFormula, hc, Bool.true_or]
  | call h => exact hletter (h.starts)
  | reference h => exact hletter (h.starts)

theorem derives_iff {w : Input} {e : Expr} :
    Derives w e ↔ (Sum Derives).union ((Call Derives).union Reference) w e := by
  constructor
  · rintro (h | h | h)
    · exact .inl h
    · exact .inr (.inl h)
    · exact .inr (.inr h)
  · rintro (h | h | h)
    · exact .sum h
    · exact .call h
    · exact .reference h

theorem goesOn_of_isNamePart {c : Char} (h : isNamePart c = true) : goesOn c = true := by
  rw [goesOn, Bool.and_eq_true, bne_iff_ne, bne_iff_ne]
  constructor <;> (rintro rfl; exact Bool.noConfusion h)

theorem Call.covers {u rest w rest' : Input} {a b : Expr} (hs : s = u ++ rest) (hu : Call F u a)
    (hs' : s = w ++ rest') (hw : Reference w b) :
    rest.length < rest'.length ∧ Starts goesOn rest' := by
  obtain @⟨n, v, es, hn, _⟩ := hu
  have hdrop : s.dropWhile isNamePart = '(' :: (v ++ [')'] ++ rest) := by
    rw [hs, List.append_assoc]
    exact dropWhile_append hn.isNamePart Bool.noConfusion
  have hlen : rest.length < (s.dropWhile isNamePart).length := by
    rw [hdrop]
    simp only [List.length_cons, List.length_append]
    omega
  rcases span_longest hs' hw.isNamePart with ⟨_, rfl⟩ | ⟨hlt, hstarts⟩
  · refine ⟨hlen, ?_⟩
    rw [hdrop]
    rfl
  · exact ⟨Nat.lt_trans hlen hlt, hstarts.mono fun _ => goesOn_of_isNamePart⟩

theorem sum_of_numeral {w : Input} {x : Float} (h : Numeral w x) : Sum F w (.number x) :=
  .operand (.operand (.operand (.number h)))

theorem sum_begins_of_digit (hs : Starts isAsciiDigit s) : (Sum F).Begins s := by
  cases s with
  | nil => exact hs.elim
  | cons c s =>
    have hd : Digits [c] := ⟨List.cons_ne_nil c [], fun d hd => List.mem_singleton.1 hd ▸ hs⟩
    have hn : Numeral ([] ++ [c]) _ := ⟨.whole (by decide) hd, Decimal.read?_whole (by decide) hd⟩
    exact ⟨[c], s, _, rfl, sum_of_numeral hn⟩

theorem reads_expression (h : Inside Derives ctx s) :
    Reads Derives .expr (Starts goesOn) s (expression.answer ctx s) := by
  have hnumber : ¬ (Sum Derives).Begins s → ∃ reason rest,
      (number.answer ctx s).orElse (.failed "no match" s) = .failed reason rest := by
    intro hn
    obtain ⟨reason, rest, hr⟩ := (reads_number ctx s).exists_failed fun ⟨w, rest, x, hs, hw⟩ =>
      hn ⟨w, rest, _, hs, sum_of_numeral hw⟩
    exact ⟨_, _, by rw [hr, Reply.orElse_failed]⟩
  have hreference : ¬ (Sum Derives).Begins s → Reads Reference .expr (Starts goesOn) s
      ((reference.answer ctx s).orElse
        ((number.answer ctx s).orElse (.failed "no match" s))) := fun hn =>
    ((reads_reference ctx s).mono fun _ hm => hm.mono fun c hc =>
      goesOn_of_isNamePart (by rw [isNamePart, hc, Bool.or_true])).orElse_of_subset
        fun _ => hnumber hn
  have hcall := fun hn : ¬ (Sum Derives).Begins s =>
    ((reads_functionCall h Derives.starts (mt sum_begins_of_digit hn)).mono
      fun _ => False.elim).orElse (fun _ => hreference hn) fun _ _ _ _ _ _ => Call.covers
  have hsum := ((reads_addition h).mono fun _ => SumGoesOn.starts).orElse hcall (by
    intro u rest a w rest' b hs hu hs' hw
    refine absurd ?_ (not_starts_letter (Begins.starts Sum.starts ⟨u, rest, a, hs, hu⟩))
    cases hw with
    | inl hw => exact Begins.starts Call.starts ⟨w, rest', b, hs', hw⟩
    | inr hw => exact Begins.starts Reference.starts ⟨w, rest', b, hs', hw⟩)
  simp only [expression, Parser.answer_named, Parser.answer_first_cons, Parser.answer_first_nil]
  exact hsum.congr fun w e => derives_iff.symm

theorem reads_runLibrary (debug : Bool) (s : Input) :
    Reads Derives .expr (Starts goesOn) s (expression.runLibrary debug s).reply := by
  rw [Parser.runLibrary, Parser.reply_run]
  refine reads_expression (within_context (fun ctx s h => ?_) debug (Rule.depth_le_nesting _ _))
  exact reads_expression h

/-- A text is read as the formula which is the longest of those it begins with. -/
theorem expression_longest (debug : Bool) (s : Input) :
    (∀ v rest, (expression.runLibrary debug s).reply = .matched v rest ↔
      ∃ w e, s = w ++ rest ∧ v = .expr e ∧ Language.Longest Derives s w e) ∧
    ((expression.runLibrary debug s).reply = .failed "no match" s ↔
      ¬ Language.Begins Derives s) ∧
    (∀ fault, (expression.runLibrary debug s).reply ≠ .raised fault) ∧
    (∀ w e e', Derives w e → Derives w e' → e = e') := by
  have h := reads_runLibrary debug s
  refine ⟨fun v rest => h.matched_iff, ⟨fun hr => ?_, fun hn => ?_⟩, fun fault hr => ?_, ?_⟩
  · rw [hr] at h
    exact h.not_begins
  · obtain ⟨reason, rest, hr⟩ := h.exists_failed hn
    have hf := hr
    rw [Parser.runLibrary, Parser.reply_run, expression, Parser.answer_named] at hf
    obtain ⟨rfl, rfl⟩ := Parser.first_failed _ hf
    exact hr
  · rw [hr] at h
    cases h
  · intro w e e' he he'
    exact Value.expr.inj ((reads_runLibrary debug w).unique he he')

end ParserKit.Formula

import ParserKit.Proofs.Language.Reading
import ParserKit.Proofs.Value.Limit

namespace ParserKit

open Text

theorem toNat_of_isAsciiDigit {c : Char} (h : isAsciiDigit c = true) :
    48 ≤ c.toNat ∧ c.toNat ≤ 57 := by
  simp only [isAsciiDigit, Bool.and_eq_true, decide_eq_true_eq, Char.le_def] at h
  exact h

def charTexts (cs : List Char) : Value := .list (cs.map fun c => .text (String.singleton c))

theorem concat_texts (ts : List String) :
    (Value.list (ts.map .text)).concat = .ok (.text (String.join ts)) := by
  have h : Value.joinTexts (ts.map .text) = .ok (String.join ts) := by
    induction ts with
    | nil => rfl
    | cons t ts ih =>
      rw [List.map_cons, Value.joinTexts, ih, String.join_cons]
      rfl
  rw [Value.concat, h]
  rfl

theorem join_singletons (cs : List Char) :
    String.join (cs.map String.singleton) = String.ofList cs := by
  induction cs with
  | nil => rfl
  | cons c cs ih =>
    rw [List.map_cons, String.join_cons, ih, String.singleton_eq_ofList, ← String.ofList_append]
    rfl

theorem concat_charTexts (cs : List Char) :
    (charTexts cs).concat = .ok (.text (String.ofList cs)) := by
  rw [charTexts, ← join_singletons, ← concat_texts, List.map_map]
  rfl

@[simp] theorem chars_charTexts (cs : List Char) : (charTexts cs).chars = cs := by
  induction cs with
  | nil => rfl
  | cons c cs ih =>
    simp only [charTexts, Value.chars, List.map_cons, List.flatMap_cons] at ih ⊢
    rw [ih]
    simp

theorem starts_of_cons {f : Char → Bool} {w rest : Input} (ne : w ≠ [])
    (h : ∀ c ∈ w, f c = true) : Starts f (w ++ rest) := by
  cases w with
  | nil => exact absurd rfl ne
  | cons c w => exact h c List.mem_cons_self

theorem takeWhile_eq_nil {f : Char → Bool} {s : Input} (h : ¬ Starts f s) :
    s.takeWhile f = [] := by
  cases s with
  | nil => rfl
  | cons c s => exact List.takeWhile_cons_of_neg h

theorem dropWhile_eq_self {f : Char → Bool} {s : Input} (h : ¬ Starts f s) : s.dropWhile f = s := by
  cases s with
  | nil => rfl
  | cons c s => exact List.dropWhile_cons_of_neg h

theorem not_starts_dropWhile (f : Char → Bool) (s : Input) : ¬ Starts f (s.dropWhile f) := by
  induction s with
  | nil => exact id
  | cons c s ih =>
    by_cases h : f c = true
    · rwa [List.dropWhile_cons_of_pos h]
    · rwa [List.dropWhile_cons_of_neg h]

theorem takeWhile_append {f : Char → Bool} {w rest : Input} (h : ∀ c ∈ w, f c = true)
    (hr : ¬ Starts f rest) : (w ++ rest).takeWhile f = w := by
  rw [List.takeWhile_append_of_pos h, takeWhile_eq_nil hr, List.append_nil]

theorem dropWhile_append {f : Char → Bool} {w rest : Input} (h : ∀ c ∈ w, f c = true)
    (hr : ¬ Starts f rest) : (w ++ rest).dropWhile f = rest := by
  have := List.takeWhile_append_dropWhile (p := f) (l := w ++ rest)
  rw [takeWhile_append h hr] at this
  exact List.append_cancel_left this

theorem takeWhile_eq_self {f : Char → Bool} {w : Input} (h : ∀ c ∈ w, f c = true) :
    w.takeWhile f = w ∧ w.dropWhile f = [] := by
  have htake := takeWhile_append h (starts_nil f)
  have hdrop := dropWhile_append h (starts_nil f)
  rw [List.append_nil] at htake hdrop
  exact ⟨htake, hdrop⟩

theorem span_longest {f : Char → Bool} {s w rest : Input} (hs : s = w ++ rest)
    (hw : ∀ c ∈ w, f c = true) : (w = s.takeWhile f ∧ rest = s.dropWhile f) ∨
      ((s.dropWhile f).length < rest.length ∧ Starts f rest) := by
  subst hs
  by_cases hr : Starts f rest
  · refine .inr ⟨?_, hr⟩
    rw [List.dropWhile_append_of_pos hw]
    cases rest with
    | nil => exact hr.elim
    | cons c rest =>
      rw [List.dropWhile_cons_of_pos hr]
      exact Nat.lt_succ_of_le (List.dropWhile_suffix f).length_le
  · exact .inl ⟨(takeWhile_append hw hr).symm, (dropWhile_append hw hr).symm⟩

theorem mem_takeWhile {f : Char → Bool} {s : Input} : ∀ c ∈ s.takeWhile f, f c = true :=
  fun _ h => List.all_eq_true.1 (List.all_takeWhile) _ h

namespace Parser

structure OfClass (ctx : Context) (f : Char → Bool) (p : Parser) : Prop where
  matched : ∀ c s, f c = true → p.answer ctx (c :: s) = .matched (.text (String.singleton c)) s
  failed : ∀ s, ¬ Starts f s → ∃ reason, p.answer ctx s = .failed reason s

variable (ctx : Context) {f : Char → Bool} {p : Parser}

theorem answer_satisfy_of_starts (name : String) {c : Char} (s : Input) (h : f c = true) :
    (satisfy f name).answer ctx (c :: s) = .matched (.text (String.singleton c)) s := by
  simp only [satisfy, satisfyOrFault, answer_leaf, satisfyStep, Except.map, h]
  rfl

theorem answer_satisfy_of_not_starts (name : String) {s : Input} (h : ¬ Starts f s) :
    (satisfy f name).answer ctx s = .failed "doesn't satisfy condition" s := by
  rw [satisfy, satisfyOrFault, answer_leaf]
  cases s with
  | nil => rfl
  | cons c s =>
    have hc : f c = false := Bool.not_eq_true _ ▸ h
    simp only [satisfyStep, Except.map, hc]
    rfl

theorem ofClass_satisfy (f : Char → Bool) (name : String) : OfClass ctx f (satisfy f name) where
  matched _ s h := answer_satisfy_of_starts ctx name s h
  failed _ h := ⟨_, answer_satisfy_of_not_starts ctx name h⟩

theorem ofClass_alphanumeric :
    OfClass ctx (fun c => isAsciiLetter c || isAsciiDigit c) alphanumeric where
  matched c s h := by
    simp only [alphanumeric, answer_named, answer_first_cons]
    cases hl : isAsciiLetter c with
    | true => rw [letter, answer_satisfy_of_starts ctx _ s hl, Reply.orElse_matched]
    | false =>
      have hd : isAsciiDigit c = true := by simpa [hl] using h
      rw [letter, answer_satisfy_of_not_starts ctx _ (by simp [hl]), Reply.orElse_failed, digit,
        answer_satisfy_of_starts ctx _ s hd, Reply.orElse_matched]
  failed s h := by
    have hl : ¬ Starts isAsciiLetter s := fun hs => h (hs.mono fun c hc => by simp [hc])
    have hd : ¬ Starts isAsciiDigit s := fun hs => h (hs.mono fun c hc => by simp [hc])
    refine ⟨"no match", ?_⟩
    simp only [alphanumeric, answer_named, answer_first_cons, letter, digit,
      answer_satisfy_of_not_starts ctx _ hl, answer_satisfy_of_not_starts ctx _ hd,
      answer_first_nil]
    rfl

namespace OfClass

variable {ctx} (hp : OfClass ctx f p) (s : Input)

include hp

theorem answers_eq : p.answers ctx s =
    .matched ((s.takeWhile f).map fun c => .text (String.singleton c)) (s.dropWhile f) := by
  induction s with
  | nil =>
    obtain ⟨_, h⟩ := hp.failed [] id
    rw [answers_of_failed h]
    rfl
  | cons c s ih =>
    by_cases h : f c = true
    · rw [answers_of_matched (hp.matched c s h) (by simp), ih, List.takeWhile_cons_of_pos h,
        List.dropWhile_cons_of_pos h]
      rfl
    · obtain ⟨_, hf⟩ := hp.failed (c :: s) h
      rw [answers_of_failed hf, List.takeWhile_cons_of_neg h, List.dropWhile_cons_of_neg h]
      rfl

theorem answer_many_eq :
    p.many.answer ctx s = .matched (charTexts (s.takeWhile f)) (s.dropWhile f) := by
  rw [answer_many, hp.answers_eq]
  rfl

theorem answer_many1_of_starts {s : Input} (h : Starts f s) :
    p.many1.answer ctx s = .matched (charTexts (s.takeWhile f)) (s.dropWhile f) := by
  cases s with
  | nil => exact h.elim
  | cons c s =>
    rw [many1, answer_named, answer_bind, hp.answer_many_eq, Reply.andThen_matched,
      List.takeWhile_cons_of_pos h]
    exact answer_succeed ctx rfl _

theorem answer_many1_of_not_starts {s : Input} (h : ¬ Starts f s) :
    p.many1.answer ctx s = .failed "at least one expected" (s.dropWhile f) := by
  rw [many1, answer_named, answer_bind, hp.answer_many_eq, Reply.andThen_matched,
    takeWhile_eq_nil h]
  exact (answer_named ctx "fail" _ _).trans (answer_fail ctx _ _)

theorem answer_concat_eq :
    p.many.concat.answer ctx s =
      .matched (.text (String.ofList (s.takeWhile f))) (s.dropWhile f) := by
  rw [concat, answer_tryMap, hp.answer_many_eq, Reply.andThen_matched, concat_charTexts]
  rfl

theorem answer_concat1_of_starts {s : Input} (h : Starts f s) :
    p.many1.concat.answer ctx s =
      .matched (.text (String.ofList (s.takeWhile f))) (s.dropWhile f) := by
  rw [concat, answer_tryMap, hp.answer_many1_of_starts h, Reply.andThen_matched,
    concat_charTexts]
  rfl

theorem answer_concat1_of_not_starts {s : Input} (h : ¬ Starts f s) :
    p.many1.concat.answer ctx s = .failed "at least one expected" s := by
  rw [concat, answer_tryMap, hp.answer_many1_of_not_starts h, Reply.andThen_failed]

end OfClass

theorem answer_char_of_eq (c : Char) (s : Input) :
    (char c).answer ctx (c :: s) = .matched (.text (String.singleton c)) s :=
  answer_satisfy_of_starts (f := (· == c)) ctx _ s (beq_self_eq_true c)

theorem answer_char_of_ne {c : Char} {s : Input} (h : s.head? ≠ some c) :
    (char c).answer ctx s = .failed "doesn't satisfy condition" s := by
  refine answer_satisfy_of_not_starts (f := (· == c)) ctx _ fun hs => h ?_
  cases s with
  | nil => exact hs.elim
  | cons d s => rw [List.head?_cons, eq_of_beq hs]

theorem reads_char (c : Char) (s : Input) :
    Reads (.char c) (fun _ => .text (String.singleton c)) (fun _ => False) s
      ((char c).answer ctx s) := by
  by_cases h : s.head? = some c
  · obtain ⟨t, rfl⟩ := List.head?_eq_some_iff.1 h
    rw [answer_char_of_eq]
    apply Reads.matched (w := [c]) (a := ()) rfl rfl
    rintro _ rest _ hs rfl
    exact .inl ⟨rfl, (List.cons.inj hs).2.symm⟩
  · rw [answer_char_of_ne ctx h]
    apply Reads.failed
    rintro ⟨_, rest, _, rfl, rfl⟩
    exact h rfl

theorem answerEach_chars_append (cs s : Input) :
    answerEach ctx (cs.map char) (cs ++ s) =
      .matched (cs.map fun c => .text (String.singleton c)) s := by
  induction cs with
  | nil => rfl
  | cons c cs ih =>
    rw [List.map_cons, answerEach_cons, List.cons_append, answer_char_of_eq,
      Reply.andThen_matched, ih]
    rfl

theorem answerEach_chars_of_not_begun {cs s : Input} (h : ¬ cs <+: s) :
    answerEach ctx (cs.map char) s = .failed "doesn't satisfy condition" s := by
  induction cs generalizing s with
  | nil => exact absurd (List.nil_prefix) h
  | cons c cs ih =>
    rw [List.map_cons, answerEach_cons]
    by_cases hc : s.head? = some c
    · obtain ⟨t, rfl⟩ := List.head?_eq_some_iff.1 hc
      have ht : ¬ cs <+: t := fun ht => h ((List.prefix_cons_inj c).2 ht)
      rw [answer_char_of_eq, Reply.andThen_matched, ih ht]
      rfl
    · rw [answer_char_of_ne ctx hc]
      rfl

theorem answer_literal_append (t : String) (s : Input) :
    (literal t).answer ctx (t.toList ++ s) = .matched (.text t) s := by
  rw [literal, answer_named, concat, answer_tryMap, answer_all, answerEach_chars_append,
    Reply.map_matched, Reply.andThen_matched]
  have h := concat_charTexts t.toList
  rw [charTexts, String.ofList_toList] at h
  rw [h]
  rfl

theorem answer_literal_of_not_begun {t : String} {s : Input} (h : ¬ t.toList <+: s) :
    (literal t).answer ctx s = .failed "doesn't satisfy condition" s := by
  rw [literal, answer_named, concat, answer_tryMap, answer_all, answerEach_chars_of_not_begun ctx h]
  rfl

theorem reads_literal (t : String) (s : Input) :
    Reads (.word t) (fun _ => .text t) (fun _ => False) s ((literal t).answer ctx s) := by
  by_cases h : t.toList <+: s
  · obtain ⟨rest, rfl⟩ := h
    rw [answer_literal_append]
    apply Reads.matched (a := ()) rfl rfl
    rintro _ rest' _ hs rfl
    exact .inl ⟨rfl, (List.append_cancel_left hs).symm⟩
  · rw [answer_literal_of_not_begun ctx h]
    apply Reads.failed
    rintro ⟨_, rest, _, rfl, rfl⟩
    exact h (List.prefix_append ..)

/-- A count cuts an input in two: so many characters stand before the cut.  If it is negative, so
many stand after the cut, or as many as there are. -/
def Cut (n : Int) (u rest : Input) : Prop :=
  (0 ≤ n ∧ u.length = n) ∨ (n < 0 ∧ (rest.length = -n ∨ (u = [] ∧ rest.length ≤ -n)))

theorem cut_iff {n : Int} {u rest : Input} :
    Cut n u rest ↔ n ≤ (u ++ rest).length ∧ u.length = cutAt (u ++ rest).length n := by
  simp only [Cut, cutAt, List.length_append, ← List.length_eq_zero_iff]
  split <;> omega

theorem Cut.length_eq_iff {n : Int} {u rest : Input} (h : Cut n u rest) :
    (u.length : Int) = n ↔ 0 ≤ n := by
  simp only [Cut] at h
  omega

theorem take_of_allows {limit : DigitLimit} {n : Int} (h : limit.allows n = true) :
    take limit n = .ok (takeAs ("consume(" ++ toString n ++ ")") n) := by
  have hn : (Value.int n).writable limit = true := h
  rw [take, Value.display_of_writable hn]
  rfl

theorem take_of_not_allows {limit : DigitLimit} {n : Int} (h : limit.allows n = false) :
    take limit n = .error .notDecimal := by
  have hn : (Value.int n).writable limit = false := h
  rw [take, Value.display_of_not_writable hn]
  rfl

theorem answer_takeAs_iff {name : String} {n : Int} {s : Input} {v : Value} {rest : Input} :
    (takeAs name n).answer ctx s = .matched v rest ↔
      ∃ u, s = u ++ rest ∧ v = .text (String.ofList u) ∧ Cut n u rest := by
  rw [takeAs, answer_leaf]
  constructor
  · intro h
    by_cases hle : n ≤ s.length
    · rw [if_pos hle] at h
      cases h
      refine ⟨s.take (cutAt s.length n), (List.take_append_drop _ s).symm, rfl, ?_⟩
      have hcut : cutAt s.length n ≤ s.length := by
        simp only [cutAt]
        split <;> omega
      rw [cut_iff, List.take_append_drop, List.length_take, Nat.min_eq_left hcut]
      exact ⟨hle, rfl⟩
    · rw [if_neg hle] at h
      cases h
  · rintro ⟨u, rfl, rfl, hcut⟩
    obtain ⟨hle, hlen⟩ := cut_iff.1 hcut
    rw [if_pos hle, ← hlen, List.take_left, List.drop_left]
    rfl

theorem answer_takeAs_of_lt {name : String} {n : Int} {s : Input} (h : s.length < n) :
    (takeAs name n).answer ctx s = .failed "not enough input" s := by
  rw [takeAs, answer_leaf, if_neg (Int.not_le.2 h)]
  rfl

theorem answer_natural_of_starts {s : Input} (h : Starts isAsciiDigit s) :
    natural.answer ctx s =
      .matched (.int (natOfDigits (s.takeWhile isAsciiDigit))) (s.dropWhile isAsciiDigit) := by
  rw [natural, answer_named, answer_map, digit,
    (ofClass_satisfy ctx isAsciiDigit _).answer_many1_of_starts h, Reply.andThen_matched,
    chars_charTexts]
  rfl

theorem answer_natural_of_not_starts {s : Input} (h : ¬ Starts isAsciiDigit s) :
    natural.answer ctx s = .failed "at least one expected" s := by
  rw [natural, answer_named, answer_map, digit,
    (ofClass_satisfy ctx isAsciiDigit _).answer_many1_of_not_starts h, Reply.andThen_failed]

theorem reads_span {code : Input → Value} {r : Reply Value} {f : Char → Bool} {s : Input}
    (h : r = .matched (code (s.takeWhile f)) (s.dropWhile f)) :
    Reads (.span f) code (Starts f) s r := by
  subst h
  apply Reads.matched List.takeWhile_append_dropWhile.symm ⟨rfl, mem_takeWhile⟩
  rintro w rest _ hs ⟨rfl, hw⟩
  refine (span_longest hs hw).imp_left fun ⟨hw, hrest⟩ => ⟨?_, hrest⟩
  rw [hw]

theorem reads_run {code : Input → Value} {r : Reply Value} {f : Char → Bool} {s : Input}
    (h : Starts f s → r = .matched (code (s.takeWhile f)) (s.dropWhile f))
    (h' : ¬ Starts f s → ∃ reason rest, r = .failed reason rest) :
    Reads (.run f) code (Starts f) s r := by
  by_cases hs : Starts f s
  · rw [h hs]
    refine .matched List.takeWhile_append_dropWhile.symm ⟨?_, rfl, mem_takeWhile⟩ ?_
    · cases s with
      | nil => exact hs.elim
      | cons c s => simp [List.takeWhile_cons_of_pos hs]
    · rintro w rest _ hs ⟨_, rfl, hw⟩
      refine (span_longest hs hw).imp_left fun ⟨hw, hrest⟩ => ⟨?_, hrest⟩
      rw [hw]
  · obtain ⟨reason, rest, rfl⟩ := h' hs
    exact .failed fun hb => hs (hb.starts Language.run_starts)

theorem OfClass.reads_concat1 {ctx : Context} (hp : OfClass ctx f p) (s : Input) :
    Reads (.run f) (fun w => .text (String.ofList w)) (Starts f) s
      (p.many1.concat.answer ctx s) :=
  reads_run hp.answer_concat1_of_starts fun h => ⟨_, _, hp.answer_concat1_of_not_starts h⟩

theorem reads_natural (s : Input) :
    Reads (.run isAsciiDigit) (fun w => .int (natOfDigits w)) (Starts isAsciiDigit) s
      (natural.answer ctx s) :=
  reads_run (answer_natural_of_starts ctx) fun h => ⟨_, _, answer_natural_of_not_starts ctx h⟩

end Parser

end ParserKit

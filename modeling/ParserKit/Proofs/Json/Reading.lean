import ParserKit.Proofs.Json.Container

namespace ParserKit.Json

open Text ParserKit.Language

variable {J : Language Value} {ctx : Context} {s : Input}

def Form (J : Language Value) : Language Value :=
  ((Language.word "null").map fun _ => .nothing).union
    ((((Language.word "true").map fun _ => .bool true).union
      ((Language.word "false").map fun _ => .bool false)).union
      ((Integer.map .int).union
        ((Quoted.map .text).union
          ((((Body (Spaced J)).between '[' ']').map .list).union
            (((Body (Member J)).map Value.ofEntries).between '\x7b' '\x7d')))))

theorem word_starts {t : String} {c : Char} {cs : List Char} (ht : t.toList = c :: cs) (w : Input)
    (a : Unit) (h : Language.word t w a) : Starts (· == c) w := by
  have hw : w = t.toList := h
  rw [hw, ht]
  exact beq_self_eq_true c

def Continued (s rest : Input) : Prop := Starts startsInteger s ∧ Starts isAsciiDigit rest

theorem reads_word (ctx : Context) (s : Input) (t : String) {v : Value} (hv : v.isFailure = false) :
    Reads ((Language.word t).map fun _ => v) id (Continued s) s
      (((Parser.literal t).map fun _ => v).answer ctx s) := by
  rw [Parser.answer_map]
  exact ((Parser.reads_literal ctx t s).apply (g := fun _ => v) (fun _ _ _ => rfl)
    fun _ _ _ => hv).mono fun _ => False.elim

theorem reads_form (hJ : Contents J) (h : Inside J ctx s) :
    Reads (Form J) id (Continued s) s (value.answer ctx s) := by
  have hinteger : Reads (Integer.map .int) id (Starts isAsciiDigit) s
      (Parser.integer.answer ctx s) := (reads_integer ctx s).recode fun _ _ _ => rfl
  have hstring : Reads (Quoted.map .text) id (fun _ => False) s (string.answer ctx s) :=
    (reads_string ctx s).recode fun _ _ _ => rfl
  have harray : Reads (((Body (Spaced J)).between '[' ']').map .list) id (fun _ => False) s
      (array.answer ctx s) :=
    (reads_array hJ h).recode fun _ vs _ => by rw [Reads.listCode, List.map_id]; rfl
  have hobject := (reads_object hJ h).orElse_failed "no match" s
  have array_starts := map_starts (between_starts (Body (Spaced J)) '[' ']') Value.list
  have object_starts := between_starts ((Body (Member J)).map Value.ofEntries) '\x7b' '\x7d'
  have string_starts := map_starts Quoted.starts Value.text
  have hcontainer := harray.orElse_of_disjoint hobject
    (disjoint_of_starts array_starts object_starts fun c hc => by rw [eq_of_beq hc]; rfl)
  have container_starts := union_starts array_starts object_starts
  have htext := hstring.orElse_of_disjoint hcontainer
    (disjoint_of_starts string_starts container_starts fun c hc => by rw [eq_of_beq hc]; rfl)
  have text_starts := union_starts string_starts container_starts
  have hnumber := (hinteger.mono_of_begins fun hb rest hd =>
    (⟨hb.map.starts Integer.starts, hd⟩ : Continued s rest)).orElse_of_disjoint
      (htext.mono fun _ => False.elim)
      (disjoint_of_starts (map_starts Integer.starts Value.int) text_starts fun c hc => by
        rw [Bool.eq_false_iff]
        intro hg
        simp only [Bool.or_eq_true, beq_iff_eq] at hg
        rcases hg with rfl | rfl | rfl <;> exact Bool.noConfusion hc)
  have number_starts := union_starts (map_starts Integer.starts Value.int) text_starts
  have true_starts := map_starts (word_starts (t := "true") rfl) fun _ => Value.bool true
  have false_starts := map_starts (word_starts (t := "false") rfl) fun _ => Value.bool false
  have hboolean := (reads_word ctx s "true" (v := .bool true) rfl).orElse_of_disjoint
    (reads_word ctx s "false" (v := .bool false) rfl)
    (disjoint_of_starts true_starts false_starts fun c hc => by rw [eq_of_beq hc]; rfl)
  have boolean_starts := union_starts true_starts false_starts
  have hword := hboolean.orElse_of_disjoint hnumber
    (disjoint_of_starts boolean_starts number_starts fun c hc => by
      simp only [Bool.or_eq_true, beq_iff_eq] at hc
      rcases hc with rfl | rfl <;> rfl)
  have null_starts := map_starts (word_starts (t := "null") rfl) fun _ => Value.nothing
  have hvalue := (reads_word ctx s "null" (v := .nothing) rfl).orElse_of_disjoint hword
    (disjoint_of_starts null_starts (union_starts boolean_starts number_starts) fun c hc => by
      rw [eq_of_beq hc]; rfl)
  simp only [value, Parser.answer_named, Parser.answer_first_cons, Parser.answer_first_nil, null,
    boolean, Parser.answer_orElse]
  exact hvalue

theorem opensItem_of_startsInteger {c : Char} (h : startsInteger c = true) :
    opensItem c = true := by
  simp only [startsInteger, Bool.or_eq_true, beq_iff_eq] at h
  rcases h with (rfl | rfl) | h
  · rfl
  · rfl
  · have hitem := itemGoesOn_of_isAsciiDigit h
    rw [itemGoesOn, Bool.and_assoc, Bool.and_eq_true] at hitem
    rw [opensItem, not_isBlank_of_isAsciiDigit h]
    exact hitem.2

theorem contents_derives : Contents Derives where
  starts w v h := by
    cases h with
    | integer h => exact (h.starts).mono fun _ => opensItem_of_startsInteger
    | string h => exact h.opens
    | _ => rfl
  isFailure_eq w v h := by cases h <;> rfl

theorem derives_iff {w : Input} {v : Value} : Derives w v ↔ Form Derives w v := by
  constructor
  · intro h
    cases h with
    | null => exact .inl ⟨(), rfl, rfl⟩
    | true => exact .inr (.inl (.inl ⟨(), rfl, rfl⟩))
    | false => exact .inr (.inl (.inr ⟨(), rfl, rfl⟩))
    | integer h => exact .inr (.inr (.inl ⟨_, h, rfl⟩))
    | string h => exact .inr (.inr (.inr (.inl ⟨_, h, rfl⟩)))
    | emptyArray h =>
      exact .inr (.inr (.inr (.inr (.inl ⟨_, ⟨_, rfl, .inr ⟨_, ⟨rfl, h⟩, rfl⟩⟩, rfl⟩))))
    | array h => exact .inr (.inr (.inr (.inr (.inl ⟨_, ⟨_, rfl, .inl h⟩, rfl⟩))))
    | emptyObject h =>
      exact .inr (.inr (.inr (.inr (.inr ⟨_, rfl, [], .inr ⟨_, ⟨rfl, h⟩, rfl⟩, rfl⟩))))
    | object h he =>
      exact .inr (.inr (.inr (.inr (.inr ⟨_, rfl, _, .inl h, entries_iff.1 he⟩))))
  · rintro (⟨_, rfl, rfl⟩ | (⟨_, rfl, rfl⟩ | ⟨_, rfl, rfl⟩) | ⟨_, h, rfl⟩ | ⟨_, h, rfl⟩ |
      ⟨_, ⟨_, rfl, h⟩, rfl⟩ | ⟨_, rfl, members, h, rfl⟩)
    · exact .null
    · exact .true
    · exact .false
    · exact .integer h
    · exact .string h
    · rcases h with h | ⟨_, ⟨rfl, h⟩, rfl⟩
      · exact .array h
      · exact .emptyArray h
    · rcases h with h | ⟨_, ⟨rfl, h⟩, rfl⟩
      · exact .object h (.foldl members)
      · exact .emptyObject h

theorem reads_value (h : Inside Derives ctx s) :
    Reads Derives id (Continued s) s (value.answer ctx s) :=
  (reads_form contents_derives h).congr fun _ _ => derives_iff.symm

theorem reads_contents (h : Inside Derives ctx s) :
    Reads Derives id (Starts isAsciiDigit) s (value.answer ctx s) :=
  (reads_value h).mono fun _ hc => hc.2

theorem inside_context (debug : Bool) (s : Input) :
    Inside Derives (Parser.context Library.rules debug (nesting s)) s :=
  within_context (fun _ _ => reads_contents) debug (Rule.depth_le_nesting _ _)

/-- The input goes on after the text of a value.  Digits after an integer would belong to it. -/
def Accepted (s : Input) (v : Value) (rest : Input) : Prop :=
  ∃ w, s = w ++ rest ∧ Derives w v ∧ ((∃ n, Integer w n) → ¬ Starts isAsciiDigit rest)

theorem Derives.integer_of_starts {w : Input} {v : Value} (h : Derives w v)
    (hw : Starts startsInteger w) : ∃ n, Integer w n := by
  cases h with
  | integer h => exact ⟨_, h⟩
  | string h =>
    cases h
    exact Bool.noConfusion hw
  | _ => exact Bool.noConfusion hw

theorem answer_value_iff (h : Inside Derives ctx s) (v : Value) (rest : Input) :
    value.answer ctx s = .matched v rest ↔ Accepted s v rest := by
  have hr := reads_value h
  constructor
  · intro heq
    rw [heq] at hr
    obtain ⟨w, _, hs, hw, rfl, hnext⟩ := hr.exists_word
    refine ⟨w, hs, hw, fun ⟨n, hn⟩ => hnext isAsciiDigit fun c hc => ?_⟩
    obtain ⟨m, hm⟩ := hn.append_digit hc
    exact ⟨.int m, .integer hm⟩
  · rintro ⟨w, hs, hw, hdigit⟩
    have hstarts := contents_derives.starts w v hw
    cases heq : value.answer ctx s with
    | raised _ => rw [heq] at hr; cases hr
    | failed _ _ =>
      rw [heq] at hr
      exact absurd ⟨w, rest, v, hs, hw⟩ hr.not_begins
    | matched u t =>
      rw [heq] at hr
      rcases hr.compare hs hw with ⟨hv, rfl⟩ | ⟨_, hs', hd⟩
      · rw [← hv]
        rfl
      · refine absurd hd (hdigit (hw.integer_of_starts ?_))
        cases w with
        | nil => exact hstarts.elim
        | cons c w => rwa [hs] at hs'

theorem answer_value_failed (h : Inside Derives ctx s) (hn : ¬ ∃ v rest, Accepted s v rest) :
    value.answer ctx s = .failed "no match" s :=
  (reads_value h).no_match fun v rest heq => hn ⟨v, rest, (answer_value_iff h v rest).1 heq⟩

theorem answer_document_of_matched {v : Value} {rest : Input} (hv : v.isFailure = false)
    (h : value.answer ctx (s.dropWhile isBlank) = .matched v rest) :
    document.answer ctx s = .matched v (rest.dropWhile isBlank) := by
  rw [document, spaced, Parser.between, answer_blanksThen, answer_thenBlanks, h,
    Reply.andThen_matched, Reply.ofOutcome_ok hv, Reply.andThen_matched, Reply.ofOutcome_ok hv]

theorem answer_document_of_failed {reason : String} {rest : Input}
    (h : value.answer ctx (s.dropWhile isBlank) = .failed reason rest) :
    document.answer ctx s = .failed reason s := by
  rw [document, spaced, Parser.between, answer_blanksThen, answer_thenBlanks, h,
    Reply.andThen_failed, Reply.andThen_failed]

theorem Accepted.isFailure_eq {v : Value} {rest : Input} (h : Accepted s v rest) :
    v.isFailure = false := by
  obtain ⟨w, _, hw, _⟩ := h
  exact contents_derives.isFailure_eq w v hw

theorem Accepted.dropWhile {u : Input} {v : Value} {rest : Input} (hu : Blank u)
    (h : Accepted s v rest) : (u ++ s).dropWhile isBlank = s := by
  obtain ⟨w, rfl, hw, _⟩ := h
  apply dropWhile_append hu
  obtain ⟨hne, hstarts⟩ := starts_opensItem (contents_derives.starts w v hw)
  cases w with
  | nil => exact absurd rfl hne
  | cons c w => exact hstarts

theorem decode_eq (text : String) :
    decode text = (document.answer (Parser.context Library.rules Bool.false (nesting text.toList))
      text.toList).value? := by
  rw [decode, Parser.parse, Parser.runLibrary, Parser.reply_run]

theorem decode_of_accepted {text : String} {u : Input} {v : Value} {rest : Input}
    (hs : text.toList = u ++ s) (hu : Blank u) (h : Accepted s v rest) :
    decode text = .ok v := by
  have hinside := (inside_context Bool.false text.toList).append hs
  have hvalue := (answer_value_iff hinside v rest).2 h
  rw [← h.dropWhile hu, ← hs] at hvalue
  rw [decode_eq, answer_document_of_matched h.isFailure_eq hvalue]
  rfl

theorem decode_of_derives {text : String} {v : Value} (h : Derives text.toList v) :
    decode text = .ok v :=
  decode_of_accepted (u := []) rfl (fun _ hc => absurd hc List.not_mem_nil)
    ⟨text.toList, (List.append_nil _).symm, h, fun _ => starts_nil _⟩

theorem decode_of_not_accepted {text : String}
    (hn : ¬ ∃ u s v rest, text.toList = u ++ s ∧ Blank u ∧ Accepted s v rest) :
    decode text = .error (.noMatch "no match") := by
  have hs : text.toList = text.toList.takeWhile isBlank ++ text.toList.dropWhile isBlank :=
    List.takeWhile_append_dropWhile.symm
  have hinside := (inside_context Bool.false text.toList).append hs
  have hvalue := answer_value_failed hinside fun ⟨v, rest, h⟩ =>
    hn ⟨_, _, v, rest, hs, blank_takeWhile _, h⟩
  rw [decode_eq, answer_document_of_failed hvalue]
  rfl

theorem exists_accepted_of_decode {text : String} {v : Value} (h : decode text = .ok v) :
    ∃ u s rest, text.toList = u ++ s ∧ Blank u ∧ Accepted s v rest := by
  by_cases hacc : ∃ u s v rest, text.toList = u ++ s ∧ Blank u ∧ Accepted s v rest
  · obtain ⟨u, s, v', rest, hs, hu, ha⟩ := hacc
    cases h.symm.trans (decode_of_accepted hs hu ha)
    exact ⟨u, s, rest, hs, hu, ha⟩
  · cases h.symm.trans (decode_of_not_accepted hacc)

/-- Exactly the texts of the grammar are accepted, as the values which they denote. -/
theorem accepts_exactly (debug : Bool) (text : String) :
    (∀ v rest, (value.runLibrary debug text.toList).reply = .matched v rest ↔
      Accepted text.toList v rest) ∧
    ((¬ ∃ v rest, Accepted text.toList v rest) →
      (value.runLibrary debug text.toList).reply = .failed "no match" text.toList) ∧
    (∀ v, decode text = .ok v ↔
      ∃ u s rest, text.toList = u ++ s ∧ Blank u ∧ Accepted s v rest) ∧
    (∀ e, decode text = .error e → e = .noMatch "no match") := by
  have hinside := inside_context debug text.toList
  have hdecode : (∃ v, decode text = .ok v ∧
      ∃ u s rest, text.toList = u ++ s ∧ Blank u ∧ Accepted s v rest) ∨
        decode text = .error (.noMatch "no match") := by
    by_cases h : ∃ u s v rest, text.toList = u ++ s ∧ Blank u ∧ Accepted s v rest
    · obtain ⟨u, s, v, rest, hs, hu, ha⟩ := h
      exact .inl ⟨v, decode_of_accepted hs hu ha, u, s, rest, hs, hu, ha⟩
    · exact .inr (decode_of_not_accepted h)
  rw [Parser.runLibrary, Parser.reply_run]
  refine ⟨answer_value_iff hinside, answer_value_failed hinside, fun v => ⟨fun hv => ?_, ?_⟩, ?_⟩
  · rcases hdecode with ⟨v', hv', h⟩ | he
    · cases hv.symm.trans hv'
      exact h
    · cases hv.symm.trans he
  · rintro ⟨u, s, rest, hs, hu, ha⟩
    exact decode_of_accepted hs hu ha
  · intro e he
    rcases hdecode with ⟨v', hv', _⟩ | he'
    · cases he.symm.trans hv'
    · cases he.symm.trans he'
      rfl

end ParserKit.Json

import ParserKit.Grammar.Library
import ParserKit.Proofs.Parser.Nesting
import ParserKit.Proofs.RunLength.Runs

namespace ParserKit.RunLength

variable (ctx : Context)

theorem answer_single_nil : single.answer ctx [] = .failed "not enough input" [] :=
  Parser.answer_takeAs_of_lt ctx Int.zero_lt_one

theorem answer_single (c : Char) (s : Input) :
    single.answer ctx (c :: s) = .matched (.text (String.singleton c)) s :=
  (Parser.answer_takeAs_iff ctx).2
    ⟨[c], rfl, by rw [String.singleton_eq_ofList], .inl ⟨Int.one_nonneg, rfl⟩⟩

theorem answer_encodeRun_nil :
    encodeRun.answer ctx [] = .failed "not enough input" [] := by
  rw [encodeRun, Parser.answer_script, Script.answer_await, answer_single_nil,
    Reply.andThen_failed]

theorem answer_encodeRun (c : Char) (s : Input) :
    encodeRun.answer ctx (c :: s) =
      .matched (.text (toString ((s.takeWhile (· == c)).length + 1) ++ String.singleton c))
        (s.dropWhile (· == c)) := by
  have hc : (Value.text (String.singleton c)).chars.headD ' ' = c := by simp [Value.chars]
  have hmany := (Parser.ofClass_satisfy ctx (· == c)
    ("char(" ++ Text.quoted (String.singleton c) ++ ")")).answer_many_eq s
  rw [encodeRun, Parser.answer_script, Script.answer_await, answer_single, Reply.andThen_matched,
    Script.answer_await, hc, Parser.char, hmany, Reply.andThen_matched, Script.answer_done,
    produce, Parser.answer_succeedAs ctx _ rfl, charTexts, countItems, List.length_map, Value.plain]

theorem answers_encodeRun (s : Input) :
    encodeRun.answers ctx s = .matched ((runs s).map fun (n, c) =>
      .text (toString n ++ String.singleton c)) [] := by
  induction hn : s.length using Nat.strongRecOn generalizing s with
  | _ n ih =>
    cases s with
    | nil => exact Parser.answers_of_failed (answer_encodeRun_nil ctx)
    | cons c s =>
      have hlt : (s.dropWhile (· == c)).length < (c :: s).length :=
        Nat.lt_succ_of_le (List.dropWhile_suffix _).length_le
      rw [Parser.answers_of_matched (answer_encodeRun ctx c s) hlt, ih _ (hn ▸ hlt) _ rfl, runs_eq]
      rfl

theorem join_runs (rs : Runs) :
    String.join (rs.map fun (n, c) => toString n ++ String.singleton c) =
      String.ofList (written rs) := by
  induction rs with
  | nil => rfl
  | cons run rs ih =>
    obtain ⟨n, c⟩ := run
    rw [List.map_cons, String.join_cons, ih, written_cons, String.ofList_append,
      String.ofList_toList, String.append_assoc, String.singleton_eq_ofList, ← String.ofList_append]
    rfl

theorem answer_encoder (s : Input) :
    encoder.answer ctx s = .matched (.text (String.ofList (written (runs s)))) [] := by
  have h : ((runs s).map fun (n, c) => Value.text (toString n ++ String.singleton c)) =
      ((runs s).map fun (n, c) => toString n ++ String.singleton c).map .text := by
    rw [List.map_map]
    rfl
  rw [encoder, Parser.answer_named, Parser.concat, Parser.answer_tryMap, Parser.answer_many,
    answers_encodeRun, Reply.map_matched, Reply.andThen_matched, h, concat_texts, join_runs]
  rfl

theorem runLibrary_eq (p : Parser) (debug : Bool) (s : Input) :
    (p.runLibrary debug s).reply =
      p.answer (Parser.context Library.rules debug (nesting s)) s := Parser.reply_run ..

theorem encode_eq (text : String) :
    encode text = .ok (.text (String.ofList (written (runs text.toList)))) := by
  rw [encode, Parser.parse, runLibrary_eq, answer_encoder]
  rfl

/-- Every text, with digits or without, is the text of one list of runs which cannot be longer.  It
is encoded as what is written for these, and nothing of it is left. -/
theorem encodes_maximal_runs (debug : Bool) (text : String) :
    ∃ rs : Runs, Maximal rs ∧ expanded rs = text.toList ∧
      (∀ rs', Maximal rs' → expanded rs' = text.toList → rs' = rs) ∧
      encode text = .ok (.text (String.ofList (written rs))) ∧
      (encoder.runLibrary debug text.toList).reply =
        .matched (.text (String.ofList (written rs))) [] := by
  refine ⟨runs text.toList, maximal_runs _, expanded_runs _, fun rs' hmaximal hexpanded => ?_,
    encode_eq text, ?_⟩
  · rw [← hexpanded, runs_expanded hmaximal]
  · rw [runLibrary_eq, answer_encoder]

example : encode "22a" = .ok (.text "221a") := (encode_eq "22a").trans rfl

end ParserKit.RunLength

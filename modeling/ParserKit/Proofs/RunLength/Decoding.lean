import ParserKit.Proofs.RunLength.Code
import ParserKit.Proofs.RunLength.Encoding

namespace ParserKit.RunLength

open Text

variable (ctx : Context)

theorem repeatText_singleton (c : Char) (n : Nat) :
    repeatText (String.singleton c) n = String.ofList (List.replicate n c) := by
  rw [repeatText, ← join_singletons, List.map_replicate]

theorem answer_decodeRun_of_not_starts {s : Input} (h : ¬ Starts isAsciiDigit s) :
    decodeRun.answer ctx s = .failed "at least one expected" s := by
  rw [decodeRun, Parser.answer_script, Script.answer_await,
    Parser.answer_natural_of_not_starts ctx h, Reply.andThen_failed]

theorem answer_decodeRun {s : Input} (h : Starts isAsciiDigit s) :
    decodeRun.answer ctx s = match s.dropWhile isAsciiDigit with
      | [] => .failed "not enough input" s
      | c :: rest =>
        if countBound ≤ natOfDigits (s.takeWhile isAsciiDigit) then .raised .countTooLarge
        else .matched (.text (String.ofList
          (List.replicate (natOfDigits (s.takeWhile isAsciiDigit)) c))) rest := by
  rw [decodeRun, Parser.answer_script, Script.answer_await, Parser.answer_natural_of_starts ctx h,
    Reply.andThen_matched, Script.answer_await]
  cases s.dropWhile isAsciiDigit with
  | nil => rw [answer_single_nil, Reply.andThen_failed]
  | cons c rest =>
    rw [answer_single, Reply.andThen_matched]
    dsimp only
    split
    · rw [Script.answer_raise]
    · rw [Script.answer_done, produce, Parser.answer_succeedAs ctx _ rfl, Int.toNat_natCast, Value.plain,
        repeatText_singleton]

theorem lt_countBound (n : Nat) : (n : Int) < countBound ↔ n < 0x8000000000000000 := by
  show (n : Int) < 0x8000000000000000 ↔ _
  omega

theorem answer_decodeRun_spelling (r : CodedRun) (s : Input) :
    decodeRun.answer ctx (r.spelling ++ s) =
      if countBound ≤ r.count then .raised .countTooLarge
      else .matched (.text (String.ofList (List.replicate r.count r.char))) s := by
  rw [answer_decodeRun ctx (r.starts_spelling s), r.dropWhile_spelling, r.takeWhile_spelling]
  rfl

theorem answer_decodeRun_unread {rest : Input} (h : Unread rest) :
    ∃ reason t, decodeRun.answer ctx rest = .failed reason t := by
  by_cases hs : Starts isAsciiDigit rest
  · have hall : ∀ c ∈ rest, isAsciiDigit c = true := by
      rcases h with rfl | h | h
      · exact List.forall_mem_nil _
      · cases rest with
        | nil => exact h.elim
        | cons c rest => simp_all
      · exact h
    rw [answer_decodeRun ctx hs, (takeWhile_eq_self hall).2]
    exact ⟨_, _, rfl⟩
  · exact ⟨_, _, answer_decodeRun_of_not_starts ctx hs⟩

theorem answers_decodeRun (code : List CodedRun) {rest : Input} (h : Unread rest) :
    decodeRun.answers ctx (spelled code ++ rest) =
      if ∀ r ∈ code, (r.count : Int) < countBound then
        .matched (code.map fun r => .text (String.ofList (List.replicate r.count r.char))) rest
      else .raised .countTooLarge := by
  induction code with
  | nil =>
    obtain ⟨reason, t, hfailed⟩ := answer_decodeRun_unread ctx h
    rw [if_pos (List.forall_mem_nil _)]
    exact Parser.answers_of_failed hfailed
  | cons r code ih =>
    have hr := answer_decodeRun_spelling ctx r (spelled code ++ rest)
    rw [spelled_cons]
    by_cases hc : (r.count : Int) < countBound
    · rw [if_neg (Int.not_le.2 hc)] at hr
      rw [Parser.answers_of_matched hr (r.length_lt _), ih]
      simp only [List.forall_mem_cons, hc, true_and]
      split <;> rfl
    · rw [if_pos (Int.not_lt.1 hc)] at hr
      rw [Parser.answers_of_raised hr, if_neg]
      exact fun hall => hc (hall r List.mem_cons_self)

theorem join_expanded (rs : Runs) :
    String.join (rs.map fun (n, c) => String.ofList (List.replicate n c)) =
      String.ofList (expanded rs) := by
  induction rs with
  | nil => rfl
  | cons run rs ih => rw [List.map_cons, String.join_cons, ih, expanded_cons, String.ofList_append]

theorem answer_decoder (code : List CodedRun) {rest : Input} (h : Unread rest) :
    decoder.answer ctx (spelled code ++ rest) =
      if ∀ r ∈ code, (r.count : Int) < countBound then
        .matched (.text (String.ofList (expanded (code.map CodedRun.run)))) rest
      else .raised .countTooLarge := by
  have htexts : (code.map fun r => Value.text (String.ofList (List.replicate r.count r.char))) =
      ((code.map CodedRun.run).map fun (n, c) => String.ofList (List.replicate n c)).map .text := by
    rw [List.map_map, List.map_map]
    rfl
  rw [decoder, Parser.answer_named, Parser.concat, Parser.answer_tryMap, Parser.answer_many,
    answers_decodeRun ctx code h]
  split
  · rw [Reply.map_matched, Reply.andThen_matched, htexts, concat_texts, join_expanded]
    rfl
  · rfl

theorem decode_eq {text : String} {code : List CodedRun} {rest : Input}
    (h : Decomposes text.toList code rest) :
    decode text = if ∀ r ∈ code, r.count < 0x8000000000000000 then
        .ok (.text (String.ofList (expanded (code.map CodedRun.run))))
      else .error (.fault .countTooLarge) := by
  rw [decode, Parser.parse, runLibrary_eq, h.eq, answer_decoder _ code h.unread]
  simp only [lt_countBound]
  split <;> rfl

/-- Any text is taken apart in one way, into coded runs and a rest.  It is decoded to the characters
of the runs, each as often as it is counted, and the rest is left; only a count which is too large
is a fault. -/
theorem decodes_coded_runs (debug : Bool) (t : Input) :
    ∃ code rest, Decomposes t code rest ∧
      (∀ code' rest', Decomposes t code' rest' → code' = code ∧ rest' = rest) ∧
      (decoder.runLibrary debug t).reply =
        (if ∀ r ∈ code, r.count < 0x8000000000000000 then
          .matched (.text (String.ofList (code.flatMap fun r => List.replicate r.count r.char))) rest
        else .raised .countTooLarge) ∧
      (∀ reason rest', (decoder.runLibrary debug t).reply ≠ .failed reason rest') ∧
      ∀ name, (decoder.runLibrary debug t).reply ≠ .raised (.emptyRepeat name) := by
  obtain ⟨code, rest, h⟩ := exists_decomposes t
  have hreply : (decoder.runLibrary debug t).reply =
      (if ∀ r ∈ code, r.count < 0x8000000000000000 then
        .matched (.text (String.ofList (code.flatMap fun r => List.replicate r.count r.char))) rest
      else .raised .countTooLarge) := by
    rw [runLibrary_eq, h.eq, answer_decoder _ code h.unread, expanded, List.flatMap_map]
    simp only [lt_countBound]
    rfl
  refine ⟨code, rest, h, fun _ _ => h.unique, hreply, fun reason rest' hr => ?_, fun name hr => ?_⟩
  · rw [hreply] at hr
    split at hr <;> cases hr
  · rw [hreply] at hr
    split at hr <;> cases hr

end ParserKit.RunLength

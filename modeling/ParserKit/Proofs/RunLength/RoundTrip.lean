import ParserKit.Proofs.RunLength.Decoding

namespace ParserKit.RunLength

open Text

variable (ctx : Context)

theorem answer_decoder_written {rs : Runs}
    (hrs : ∀ run ∈ rs, (run.1 : Int) < countBound ∧ isAsciiDigit run.2 = false) :
    decoder.answer ctx (written rs) = .matched (.text (String.ofList (expanded rs))) [] := by
  obtain ⟨code, hcode, rfl⟩ := exists_code fun run hrun => (hrs run hrun).2
  have hbound : ∀ r ∈ code, (r.count : Int) < countBound := fun r hr =>
    (hrs r.run (List.mem_map_of_mem hr)).1
  rw [hcode, ← List.append_nil (spelled code), answer_decoder ctx code (.inl rfl), if_pos hbound]

def Digitless (t : String) : Prop := ∀ c ∈ t.toList, isAsciiDigit c = false

instance (t : String) : Decidable (Digitless t) :=
  decidable_of_iff ((t.toList.all fun c => !isAsciiDigit c) = true) (by simp [Digitless])

theorem digitless_join {ts : List String} (h : ∀ t ∈ ts, Digitless t) :
    Digitless (String.join ts) := by
  intro c hc
  rw [String.toList_join, List.mem_flatMap] at hc
  obtain ⟨t, ht, hc⟩ := hc
  exact h t ht c hc

theorem digitless_of_decodeRun (s : Input) (v : Value) (rest : Input)
    (h : decodeRun.answer ctx s = .matched v rest) : ∃ t, v = .text t ∧ Digitless t := by
  by_cases hs : Starts isAsciiDigit s
  · have hdrop := not_starts_dropWhile isAsciiDigit s
    rw [answer_decodeRun ctx hs] at h
    cases hr : s.dropWhile isAsciiDigit with
    | nil => rw [hr] at h; cases h
    | cons c t =>
      rw [hr] at h hdrop
      dsimp only at h
      split at h
      · cases h
      · cases h
        refine ⟨_, rfl, fun d hd => ?_⟩
        rw [String.toList_ofList] at hd
        rw [List.eq_of_mem_replicate hd]
        exact Bool.not_eq_true _ ▸ hdrop
  · rw [answer_decodeRun_of_not_starts ctx hs] at h
    cases h

theorem exists_texts {P : String → Prop} {vs : List Value}
    (h : ∀ v ∈ vs, ∃ t, v = .text t ∧ P t) :
    ∃ ts : List String, vs = ts.map .text ∧ ∀ t ∈ ts, P t := by
  induction vs with
  | nil => exact ⟨[], rfl, fun _ ht => absurd ht List.not_mem_nil⟩
  | cons v vs ih =>
    rw [List.forall_mem_cons] at h
    obtain ⟨⟨t, rfl, ht⟩, h⟩ := h
    obtain ⟨ts, rfl, hts⟩ := ih h
    exact ⟨t :: ts, rfl, List.forall_mem_cons.2 ⟨ht, hts⟩⟩

theorem digitless_of_decoder {s : Input} {v : Value} {rest : Input}
    (h : decoder.answer ctx s = .matched v rest) : ∃ t, v = .text t ∧ Digitless t := by
  rw [decoder, Parser.answer_named, Parser.concat, Parser.answer_tryMap, Parser.answer_many] at h
  cases hr : decodeRun.answers ctx s with
  | raised _ => rw [hr] at h; cases h
  | failed _ _ => rw [hr] at h; cases h
  | matched vs t =>
    obtain ⟨ts, rfl, hts⟩ := exists_texts (Parser.answers_forall (digitless_of_decodeRun ctx) hr)
    rw [hr, Reply.map_matched, Reply.andThen_matched, concat_texts] at h
    cases h
    exact ⟨_, rfl, digitless_join hts⟩

/-- A text is decoded from its code exactly if it has no digits; what is decoded never has any. -/
theorem round_trip (debug : Bool) :
    (∀ text : String, text.length < 0x8000000000000000 → ∃ code,
      encode text = .ok (.text code) ∧
      (encoder.runLibrary debug text.toList).reply = .matched (.text code) [] ∧
      (decode code = .ok (.text text) ↔ Digitless text) ∧
      (Digitless text →
        (decoder.runLibrary debug code.toList).reply = .matched (.text text) [])) ∧
    ∀ code v, decode code = .ok v → ∃ text, v = .text text ∧ Digitless text := by
  have hdecode : ∀ code v, decode code = .ok v → ∃ text, v = .text text ∧ Digitless text := by
    intro code v h
    rw [decode, Parser.parse, runLibrary_eq] at h
    cases hr : decoder.answer (Parser.context Library.rules false (nesting code.toList))
      code.toList with
    | raised _ => rw [hr] at h; cases h
    | failed _ _ => rw [hr] at h; cases h
    | matched u rest =>
      rw [hr] at h
      cases h
      exact digitless_of_decoder _ hr
  refine ⟨fun text hlen => ?_, hdecode⟩
  have hruns : Digitless text → ∀ run ∈ runs text.toList,
      (run.1 : Int) < countBound ∧ isAsciiDigit run.2 = false := by
    rintro h ⟨n, c⟩ hrun
    obtain ⟨hn, hc⟩ := mem_runs hrun
    rw [String.length_toList] at hn
    refine ⟨?_, h c hc⟩
    show (n : Int) < 0x8000000000000000
    omega
  have hback : ∀ ctx, Digitless text →
      decoder.answer ctx (written (runs text.toList)) = .matched (.text text) [] := by
    intro ctx h
    rw [answer_decoder_written ctx (hruns h), expanded_runs, String.ofList_toList]
  refine ⟨String.ofList (written (runs text.toList)), ?_, ?_, ⟨fun h => ?_, fun h => ?_⟩,
    fun h => ?_⟩
  · rw [encode, Parser.parse, runLibrary_eq, answer_encoder]
    rfl
  · rw [runLibrary_eq, answer_encoder]
  · obtain ⟨_, ht, hdigitless⟩ := hdecode _ _ h
    cases ht
    exact hdigitless
  · rw [decode, Parser.parse, runLibrary_eq, String.toList_ofList, hback _ h]
    rfl
  · rw [runLibrary_eq, String.toList_ofList, hback _ h]

theorem round_trip_aab : ∃ code, encode "aab" = .ok (.text code) ∧
    decode code = .ok (.text "aab") := by
  obtain ⟨code, hencode, _, hdecode, _⟩ := (round_trip false).1 "aab" (by decide)
  exact ⟨code, hencode, hdecode.2 (by decide)⟩

end ParserKit.RunLength

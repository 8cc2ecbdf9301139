import ParserKit.Grammar.Json
import ParserKit.Proofs.Json.Grammar
import ParserKit.Proofs.Language.Repetition

namespace ParserKit.Json

open Text ParserKit.Language

variable {α : Type} {L : Language α} {code : α → Value} {More : Input → Prop} {s : Input}
  {p : Parser} (ctx : Context)

theorem answer_blanks (s : Input) :
    Parser.blanks.answer ctx s =
      .matched (charTexts (s.takeWhile isBlank)) (s.dropWhile isBlank) := by
  rw [Parser.blanks, Parser.answer_named]
  exact (Parser.ofClass_satisfy ctx isBlank _).answer_many_eq s

theorem reads_blanks (s : Input) :
    Reads (.span isBlank) charTexts (Starts isBlank) s (Parser.blanks.answer ctx s) :=
  Parser.reads_span (answer_blanks ctx s)

theorem answer_thenBlanks (p : Parser) (s : Input) :
    (p.thenSkip Parser.blanks).answer ctx s =
      (p.answer ctx s).andThen s fun v rest => .ofOutcome (.ok v) (rest.dropWhile isBlank) := by
  rw [Parser.answer_thenSkip]
  congr
  funext v rest
  rw [answer_blanks, Reply.andThen_matched]

theorem answer_blanksThen (p : Parser) (s : Input) :
    (Parser.blanks.skipThen p).answer ctx s =
      (p.answer ctx (s.dropWhile isBlank)).andThen s fun v rest => .ofOutcome (.ok v) rest := by
  rw [Parser.answer_skipThen, answer_blanks, Reply.andThen_matched]

theorem blank_nil : Blank [] := fun _ h => absurd h List.not_mem_nil

theorem Blank.append {u v : Input} (hu : Blank u) (hv : Blank v) : Blank (u ++ v) := fun c hc =>
  (List.mem_append.1 hc).elim (hu c) (hv c)

theorem blank_takeWhile (s : Input) : Blank (s.takeWhile isBlank) := mem_takeWhile

theorem reads_thenBlanks (h : Reads L code More s (p.answer ctx s))
    (hL : ∀ w v a, L w a → Blank v → L (w ++ v) a)
    (ok : ∀ w a, L w a → (code a).isFailure = false) :
    Reads L code More s ((p.thenSkip Parser.blanks).answer ctx s) := by
  rw [answer_thenBlanks]
  cases hr : p.answer ctx s with
  | raised _ => rw [hr] at h; cases h
  | failed reason rest =>
    rw [hr] at h
    exact .failed h.not_begins
  | matched v rest =>
    rw [hr] at h
    obtain ⟨w, a, -, ha, -, hnext⟩ := h.exists_word
    have hrest : ¬ Starts isBlank rest :=
      hnext isBlank fun c hc => ⟨a, hL w [c] a ha (List.forall_mem_singleton.2 hc)⟩
    rw [Reply.andThen_matched, dropWhile_eq_self hrest, Reply.ofOutcome_ok (h.isFailure_eq ok)]
    exact h

theorem reads_blanksThen
    (h : Reads L code More (s.dropWhile isBlank) (p.answer ctx (s.dropWhile isBlank)))
    (split : ∀ w a, L w a → ∃ u v, w = u ++ v ∧ Blank u ∧ L v a ∧ v ≠ [] ∧ ¬ Starts isBlank v)
    (join : ∀ u w a, Blank u → L w a → L (u ++ w) a)
    (ok : ∀ w a, L w a → (code a).isFailure = false) :
    Reads L code More s ((Parser.blanks.skipThen p).answer ctx s) := by
  have hword : ∀ w rest a, s = w ++ rest → L w a →
      ∃ v, s.dropWhile isBlank = v ++ rest ∧ L v a := by
    intro w rest a hs ha
    obtain ⟨u, v, rfl, hu, hv, hne, hstarts⟩ := split w a ha
    refine ⟨v, ?_, hv⟩
    rw [hs, List.append_assoc]
    apply dropWhile_append hu
    cases v with
    | nil => exact absurd rfl hne
    | cons c v => exact hstarts
  rw [answer_blanksThen]
  cases hr : p.answer ctx (s.dropWhile isBlank) with
  | raised _ => rw [hr] at h; cases h
  | failed reason rest =>
    rw [hr] at h
    apply Reads.failed
    rintro ⟨w, rest', a, hs, ha⟩
    obtain ⟨v, hv, ha⟩ := hword w rest' a hs ha
    exact h.not_begins ⟨v, rest', a, hv, ha⟩
  | matched v rest =>
    rw [hr] at h
    rw [Reply.andThen_matched, Reply.ofOutcome_ok (h.isFailure_eq ok)]
    cases h with
    | @matched w a _ hs ha hc =>
      refine .matched (w := s.takeWhile isBlank ++ w) ?_ (join _ _ _ (blank_takeWhile s) ha) ?_
      · rw [List.append_assoc, ← hs, List.takeWhile_append_dropWhile]
      · intro w' rest' a' hs' ha'
        obtain ⟨v', hv', ha'⟩ := hword w' rest' a' hs' ha'
        exact hc hv' ha'

theorem Spaced.append_blank {w v : Input} {a : α} (h : Spaced L w a) (hv : Blank v) :
    Spaced L (w ++ v) a := by
  obtain @⟨u, w, v', a, hu, hw, hv'⟩ := h
  rw [List.append_assoc, List.append_assoc]
  exact .mk hu hw (hv'.append hv)

theorem Spaced.blank_append {u w : Input} {a : α} (hu : Blank u) (h : Spaced L w a) :
    Spaced L (u ++ w) a := by
  obtain @⟨u', w, v, a, hu', hw, hv⟩ := h
  rw [← List.append_assoc]
  exact .mk (hu.append hu') hw hv

theorem reads_spaced (hp : ∀ u rest, s = u ++ rest → Reads L code More rest (p.answer ctx rest))
    (hL : ∀ w a, L w a → w ≠ [] ∧ ¬ Starts isBlank w)
    (sep : ∀ rest, More rest → ¬ Starts isBlank rest)
    (ok : ∀ w a, L w a → (code a).isFailure = false) :
    Reads (Spaced L) code (fun rest => Starts isBlank rest ∨ More rest) s
      ((spaced p).answer ctx s) := by
  have hs : s = s.takeWhile isBlank ++ s.dropWhile isBlank :=
    List.takeWhile_append_dropWhile.symm
  have hblanks : ∀ rest, Reads (.span isBlank) charTexts
      (fun rest => Starts isBlank rest ∨ More rest) rest (Parser.blanks.answer ctx rest) :=
    fun rest => (reads_blanks ctx rest).mono fun _ => .inl
  have hsep : ∀ v rest b, Language.span isBlank v b → More (v ++ rest) →
      v = [] ∧ (Starts isBlank rest ∨ More rest) := by
    rintro _ rest v ⟨rfl, hv⟩ hm
    cases v with
    | nil => exact ⟨rfl, .inr hm⟩
    | cons c v => exact absurd (hv c List.mem_cons_self) (sep _ hm)
  have hskip := (hp _ _ hs).thenSkip (fun _ rest _ _ _ => hblanks rest) hsep ok
  refine reads_blanksThen ctx (hskip.congr_begins ?_) ?_ (fun _ _ _ => .blank_append) ?_
  · intro w rest a hs
    constructor
    · rintro ⟨⟨_, _⟩, ⟨u, v, rfl, hu, rfl, hv⟩, rfl⟩
      exact .mk blank_nil hu hv
    · rintro @⟨u, w, v, _, hu, hw, hv⟩
      -- No blank begins what is left of the input, and so none begins the word.
      cases u with
      | nil => exact ⟨(a, v), ⟨w, v, rfl, hw, rfl, hv⟩, rfl⟩
      | cons c u =>
        refine absurd ?_ (not_starts_dropWhile isBlank s)
        rw [hs]
        exact hu c List.mem_cons_self
  · rintro _ a @⟨u, w, v, _, hu, hw, hv⟩
    obtain ⟨hne, hstarts⟩ := hL w a hw
    refine ⟨u, w ++ v, rfl, hu, .mk blank_nil hw hv,
      fun h => hne (List.append_eq_nil_iff.1 h).1, ?_⟩
    cases w with
    | nil => exact absurd rfl hne
    | cons c w => exact hstarts
  · rintro _ a @⟨_, w, _, _, _, hw, _⟩
    exact ok w a hw

end ParserKit.Json

import ParserKit.Proofs.Parser.Lexical

namespace ParserKit

theorem Language.longest_span (f : Char → Bool) (s : Input) :
    (Language.span f).Longest s (s.takeWhile f) (s.takeWhile f) where
  mem := ⟨rfl, mem_takeWhile⟩
  begins := List.takeWhile_prefix f
  longest := by
    rintro w _ ⟨rfl, hw⟩ ⟨rest, rfl⟩
    rw [List.takeWhile_append_of_pos hw, List.length_append]
    exact Nat.le_add_right ..

namespace Parser

variable (ctx : Context) {t : String} {s rest : Input} {v : Value}

theorem answer_literal_iff :
    (literal t).answer ctx s = .matched v rest ↔ s = t.toList ++ rest ∧ v = .text t := by
  constructor
  · intro h
    by_cases hs : t.toList <+: s
    · obtain ⟨u, rfl⟩ := hs
      rw [answer_literal_append] at h
      cases h
      exact ⟨rfl, rfl⟩
    · rw [answer_literal_of_not_begun ctx hs] at h
      cases h
  · rintro ⟨rfl, rfl⟩
    exact answer_literal_append ctx t rest

theorem answer_literal_failed_iff :
    (literal t).answer ctx s = .failed "doesn't satisfy condition" s ↔ ¬ t.toList <+: s := by
  constructor
  · rintro h ⟨u, rfl⟩
    rw [answer_literal_append] at h
    cases h
  · exact answer_literal_of_not_begun ctx

/-- Characters of a class are read as far as they go, one by one or joined, whatever the class and
the input; and a text is read where it begins the input, and nowhere else. -/
theorem lexemes_read :
    (∀ f name s, ∃ w rest, s = w ++ rest ∧ (Language.span f).Longest s w w ∧
      (satisfy f name).many.answer ctx s = .matched (charTexts w) rest ∧
      (satisfy f name).many.concat.answer ctx s = .matched (.text (String.ofList w)) rest) ∧
    (∀ t s v rest, (literal t).answer ctx s = .matched v rest ↔
      s = t.toList ++ rest ∧ v = .text t) ∧
    (∀ t s, (literal t).answer ctx s = .failed "doesn't satisfy condition" s ↔
      ¬ t.toList <+: s) := by
  refine ⟨fun f name s => ?_, fun t s v rest => answer_literal_iff ctx,
    fun t s => answer_literal_failed_iff ctx⟩
  have hclass : OfClass ctx f (satisfy f name) := ofClass_satisfy ctx f name
  exact ⟨s.takeWhile f, s.dropWhile f, List.takeWhile_append_dropWhile.symm,
    Language.longest_span f s, hclass.answer_many_eq s, hclass.answer_concat_eq s⟩

end Parser

end ParserKit

import ParserKit.Proofs.RunLength.Decoding

namespace ParserKit.RunLength

open Text

/-- The code of runs which cannot be longer, of characters which are no digits. -/
def Canonical (t : Input) : Prop :=
  ∃ rs, Maximal rs ∧ (∀ run ∈ rs, isAsciiDigit run.2 = false) ∧ t = written rs

theorem not_isAsciiDigit_of_mem_expanded {code : List CodedRun} {c : Char}
    (h : c ∈ expanded (code.map CodedRun.run)) : isAsciiDigit c = false := by
  rw [expanded, List.mem_flatMap] at h
  obtain ⟨run, hrun, hc⟩ := h
  obtain ⟨r, _, rfl⟩ := List.mem_map.1 hrun
  rw [List.eq_of_mem_replicate hc]
  exact r.isAsciiDigit_char

/-- A text which is decoded is what its decoding is encoded to exactly if it is canonical: zeros in
front of a count, counts of zero, neighbours of one character and a rest are all lost. -/
theorem encode_decode_iff {t : String} {v : Value} (h : decode t = .ok v) :
    ∃ text code, v = .text text ∧ encode text = .ok (.text code) ∧
      (code = t ↔ Canonical t.toList) := by
  obtain ⟨code, rest, hdecomposes⟩ := exists_decomposes t.toList
  rw [decode_eq hdecomposes] at h
  split at h
  · cases h
    refine ⟨_, _, rfl, encode_eq _, ?_⟩
    rw [String.toList_ofList]
    constructor
    · rintro rfl
      refine ⟨_, maximal_runs _, fun run hrun => ?_, String.toList_ofList⟩
      exact not_isAsciiDigit_of_mem_expanded (mem_runs hrun).2
    · rintro ⟨rs, hmaximal, hdigits, ht⟩
      obtain ⟨code', hcode', rfl⟩ := exists_code hdigits
      have h' : Decomposes t.toList code' [] :=
        ⟨by rw [ht, hcode', List.append_nil], .inl rfl⟩
      obtain ⟨rfl, _⟩ := hdecomposes.unique h'
      rw [runs_expanded hmaximal, ← ht, String.ofList_toList]
  · cases h

theorem encode_decode_iff_zero_count :
    decode "1a0b1a" = .ok (.text "aa") ∧ encode "aa" = .ok (.text "2a") ∧
      ¬ Canonical "1a0b1a".toList := by
  let run (d c : Char) (hd : isAsciiDigit d = true) (hc : isAsciiDigit c = false) : CodedRun :=
    ⟨[d], c, List.cons_ne_nil d [], List.forall_mem_singleton.2 hd, hc⟩
  have h : Decomposes "1a0b1a".toList [run '1' 'a' rfl rfl, run '0' 'b' rfl rfl, run '1' 'a' rfl rfl]
      [] := ⟨rfl, .inl rfl⟩
  have hdecode : decode "1a0b1a" = .ok (.text "aa") := (decode_eq h).trans rfl
  have hencode : encode "aa" = .ok (.text "2a") := (encode_eq "aa").trans rfl
  obtain ⟨text, code, htext, hcode, hiff⟩ := encode_decode_iff hdecode
  cases htext
  cases hcode.symm.trans hencode
  exact ⟨hdecode, hencode, fun hcanonical => absurd (hiff.2 hcanonical) (by decide)⟩

end ParserKit.RunLength

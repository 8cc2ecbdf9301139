import ParserKit.Proofs.RunLength.Runs

namespace ParserKit.RunLength

open Text

@[ext] structure CodedRun where
  digits : Input
  char : Char
  digits_ne_nil : digits ≠ []
  isAsciiDigit_digits : ∀ d ∈ digits, isAsciiDigit d = true
  isAsciiDigit_char : isAsciiDigit char = false

namespace CodedRun

def count (r : CodedRun) : Nat := natOfDigits r.digits

def run (r : CodedRun) : Nat × Char := (r.count, r.char)

def spelling (r : CodedRun) : Input := r.digits ++ [r.char]

variable (r : CodedRun) (s : Input)

theorem spelling_append : r.spelling ++ s = r.digits ++ r.char :: s := by
  rw [spelling, List.append_assoc, List.singleton_append]

theorem length_lt : s.length < (r.spelling ++ s).length := by
  rw [spelling, List.length_append, List.length_append, List.length_singleton]
  omega

theorem starts_spelling : Starts isAsciiDigit (r.spelling ++ s) := by
  rw [spelling_append]
  exact starts_of_cons r.digits_ne_nil r.isAsciiDigit_digits

theorem not_starts_char : ¬ Starts isAsciiDigit (r.char :: s) := by
  simp [r.isAsciiDigit_char]

theorem takeWhile_spelling : (r.spelling ++ s).takeWhile isAsciiDigit = r.digits := by
  rw [spelling_append, takeWhile_append r.isAsciiDigit_digits (r.not_starts_char s)]

theorem dropWhile_spelling : (r.spelling ++ s).dropWhile isAsciiDigit = r.char :: s := by
  rw [spelling_append, dropWhile_append r.isAsciiDigit_digits (r.not_starts_char s)]

def ofRun (n : Nat) (c : Char) (hc : isAsciiDigit c = false) : CodedRun where
  digits := (toString n).toList
  char := c
  digits_ne_nil := by
    rw [toList_toString]
    exact Nat.toDigits_ne_nil
  isAsciiDigit_digits _ := isAsciiDigit_of_mem_toString
  isAsciiDigit_char := hc

theorem run_ofRun {n : Nat} {c : Char} (hc : isAsciiDigit c = false) :
    (ofRun n c hc).run = (n, c) := by
  rw [run, count]
  exact congrArg (·, c) (natOfDigits_toString n)

end CodedRun

def spelled (rs : List CodedRun) : Input := rs.flatMap CodedRun.spelling

theorem spelled_cons (r : CodedRun) (rs : List CodedRun) (rest : Input) :
    spelled (r :: rs) ++ rest = r.spelling ++ (spelled rs ++ rest) := by
  rw [spelled, List.flatMap_cons, List.append_assoc]
  rfl

theorem exists_code {rs : Runs} (h : ∀ run ∈ rs, isAsciiDigit run.2 = false) :
    ∃ code : List CodedRun, written rs = spelled code ∧ code.map CodedRun.run = rs := by
  induction rs with
  | nil => exact ⟨[], rfl, rfl⟩
  | cons run rs ih =>
    obtain ⟨n, c⟩ := run
    rw [List.forall_mem_cons] at h
    obtain ⟨code, hcode, hruns⟩ := ih h.2
    refine ⟨.ofRun n c h.1 :: code, ?_, ?_⟩
    · rw [written, List.flatMap_cons, spelled, List.flatMap_cons]
      exact congrArg _ hcode
    · rw [List.map_cons, CodedRun.run_ofRun, hruns]

/-- A text which begins with no coded run: nothing, or no count, or a count alone. -/
def Unread (rest : Input) : Prop :=
  rest = [] ∨ Starts (fun c => !isAsciiDigit c) rest ∨ ∀ c ∈ rest, isAsciiDigit c = true

theorem Unread.ne_spelling {rest : Input} (h : Unread rest) (r : CodedRun) (s : Input) :
    rest ≠ r.spelling ++ s := by
  rintro rfl
  rcases h with h | h | h
  · exact absurd (h ▸ r.starts_spelling s) (starts_nil _)
  · have hd := r.starts_spelling s
    cases hs : r.spelling ++ s with
    | nil => rw [hs] at hd; exact hd
    | cons c t =>
      rw [hs] at hd h
      simp_all
  · have hc := h r.char (by simp [CodedRun.spelling])
    rw [r.isAsciiDigit_char] at hc
    cases hc

/-- A text taken apart into coded runs and what is left. -/
structure Decomposes (t : Input) (rs : List CodedRun) (rest : Input) : Prop where
  eq : t = spelled rs ++ rest
  unread : Unread rest

theorem exists_decomposes (t : Input) : ∃ rs rest, Decomposes t rs rest := by
  induction hn : t.length using Nat.strongRecOn generalizing t with
  | _ n ih =>
    subst hn
    have happ := List.takeWhile_append_dropWhile (p := isAsciiDigit) (l := t)
    by_cases hs : Starts isAsciiDigit t
    · cases hd : t.dropWhile isAsciiDigit with
      | nil =>
        rw [hd, List.append_nil] at happ
        exact ⟨[], t, rfl, .inr (.inr (happ ▸ mem_takeWhile))⟩
      | cons c u =>
        have hc : isAsciiDigit c = false := by
          have := not_starts_dropWhile isAsciiDigit t
          rw [hd] at this
          exact Bool.not_eq_true _ ▸ this
        have hne : t.takeWhile isAsciiDigit ≠ [] := by
          cases t with
          | nil => exact hs.elim
          | cons d t => simp [List.takeWhile_cons_of_pos hs]
        let r : CodedRun := ⟨t.takeWhile isAsciiDigit, c, hne, mem_takeWhile, hc⟩
        have ht : t = r.spelling ++ u := by
          rw [r.spelling_append, ← hd]
          exact happ.symm
        obtain ⟨rs, rest, hu, hrest⟩ := ih u.length (ht ▸ r.length_lt u) u rfl
        refine ⟨r :: rs, rest, ?_, hrest⟩
        rw [spelled_cons, ← hu]
        exact ht
    · refine ⟨[], t, rfl, ?_⟩
      cases t with
      | nil => exact .inl rfl
      | cons c t => exact .inr (.inl (by simpa using hs))

theorem Decomposes.unique {t rest rest' : Input} {rs rs' : List CodedRun}
    (h : Decomposes t rs rest) (h' : Decomposes t rs' rest') : rs' = rs ∧ rest' = rest := by
  obtain ⟨rfl, hrest⟩ := h
  obtain ⟨heq, hrest'⟩ := h'
  induction rs generalizing rs' with
  | nil =>
    cases rs' with
    | nil => exact ⟨rfl, heq.symm⟩
    | cons r' rs' =>
      rw [spelled_cons] at heq
      exact absurd heq (hrest.ne_spelling r' _)
  | cons r rs ih =>
    cases rs' with
    | nil =>
      rw [spelled_cons] at heq
      exact absurd heq.symm (hrest'.ne_spelling r _)
    | cons r' rs' =>
      rw [spelled_cons, spelled_cons] at heq
      have hdigits := congrArg (List.takeWhile isAsciiDigit) heq
      have htail := congrArg (List.dropWhile isAsciiDigit) heq
      rw [r.takeWhile_spelling, r'.takeWhile_spelling] at hdigits
      rw [r.dropWhile_spelling, r'.dropWhile_spelling, List.cons.injEq] at htail
      obtain rfl : r' = r := CodedRun.ext hdigits.symm htail.1.symm
      obtain ⟨rfl, rfl⟩ := ih htail.2
      exact ⟨rfl, rfl⟩

end ParserKit.RunLength

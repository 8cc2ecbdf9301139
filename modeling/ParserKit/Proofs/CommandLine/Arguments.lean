import Mathlib.Data.List.TakeWhile
import ParserKit.CommandLine.Arguments

namespace ParserKit.CommandLine

def withoutDebug (args : List String) : List String := args.filter (· != "--debug")

namespace Word

theorem ofArgument_debug : ofArgument "--debug" = .debug := by decide

theorem ofArgument_of_not_minus {s : String} (h : s.toList.head? ≠ some '-') :
    ofArgument s = .positional s := by
  rw [ofArgument]
  split
  all_goals first
    | rfl
    | exact absurd (by simp [*]) h

end Word

namespace Command

theorem ofArgument_name (c : Command) : Word.ofArgument c.name = .positional c.name := by
  cases c <;> rfl

end Command

namespace Found

theorem addWords_debug {args : List String} (h : ∀ a ∈ args, a = "--debug") (f : Found)
    (ws : List Word) : ∃ placed, f.addWords (args.map Word.ofArgument ++ ws) =
      addWords { f with debug := f.debug || args.contains "--debug", placed := placed } ws := by
  induction args generalizing f with
  | nil => exact ⟨f.placed, by simp⟩
  | cons a args ih =>
    obtain ⟨rfl, hargs⟩ := List.forall_mem_cons.1 h
    obtain ⟨placed, hp⟩ := ih hargs { f with debug := true, placed := false }
    refine ⟨placed, ?_⟩
    have hdebug : (f.debug || ("--debug" :: args).contains "--debug") =
        (true || args.contains "--debug") := by simp
    rw [List.map_cons, List.cons_append, Word.ofArgument_debug, hdebug]
    exact hp

theorem addWords_command {f : Found} (h : f.command = none) (c : Command) (ws : List Word) :
    f.addWords (.positional c.name :: ws) =
      addWords { f with command := some c, placed := true } ws := by
  rw [addWords, addWord, addPositional, h]
  simp only [Command.ofName?_name]
  rfl

theorem addWords_text {f : Found} {c : Command} (hc : f.command = some c) (hs : f.source = none)
    (text : String) (ws : List Word) :
    f.addWords (.positional text :: ws) =
      addWords { f with source := some (.text text), placed := true } ws := by
  rw [addWords, addWord, addPositional, hc, hs]
  rfl

end Found

variable {c : Command} {text : String} {args : List String}

theorem exists_segments (h : withoutDebug args = [c.name, text]) : ∃ before between after,
    args = before ++ c.name :: (between ++ text :: after) ∧ text ≠ "--debug" ∧
      (∀ a ∈ before, a = "--debug") ∧ (∀ a ∈ between, a = "--debug") ∧
      ∀ a ∈ after, a = "--debug" := by
  obtain ⟨before, rest, rfl, hbefore, -, hrest⟩ := List.filter_eq_cons_iff.1 h
  obtain ⟨between, after, rfl, hbetween, htext, hafter⟩ := List.filter_eq_cons_iff.1 hrest
  have debug_of {a : String} (ha : ¬ (a != "--debug") = true) : a = "--debug" := by simpa using ha
  exact ⟨before, between, after, rfl, by simpa using htext, fun a ha => debug_of (hbefore a ha),
    fun a ha => debug_of (hbetween a ha),
    fun a ha => debug_of (List.filter_eq_nil_iff.1 hafter a ha)⟩

theorem eq_of_mem (h : withoutDebug args = [c.name, text]) {a : String} (ha : a ∈ args) :
    a = "--debug" ∨ a = c.name ∨ a = text := by
  by_cases hd : a = "--debug"
  · exact .inl hd
  · have hmem : a ∈ withoutDebug args := List.mem_filter.2 ⟨ha, by simpa using hd⟩
    rw [h] at hmem
    exact .inr (by simpa using hmem)

theorem addWords_eq (htext : text.toList.head? ≠ some '-')
    (h : withoutDebug args = [c.name, text]) : ∃ placed,
      Found.start.addWords (args.map Word.ofArgument) =
        .ok ⟨some c, some (.text text), args.contains "--debug", false, placed⟩ := by
  obtain ⟨before, between, after, rfl, ht, hbefore, hbetween, hafter⟩ := exists_segments h
  have hc : ("--debug" == c.name) = false := by cases c <;> decide
  have ht' : ("--debug" == text) = false := beq_eq_false_iff_ne.2 ht.symm
  have hcontains : (before ++ c.name :: (between ++ text :: after)).contains "--debug" =
      (before.contains "--debug" || between.contains "--debug" || after.contains "--debug") := by
    rw [List.contains_append, List.contains_cons, List.contains_append, List.contains_cons, hc, ht',
      Bool.false_or, Bool.false_or, Bool.or_assoc]
  -- One gap after the other: what is found before it stands in the first argument.
  obtain ⟨_, h₁⟩ := Found.addWords_debug hbefore .start (.positional c.name ::
    (between.map Word.ofArgument ++ .positional text :: after.map Word.ofArgument))
  obtain ⟨_, h₂⟩ := Found.addWords_debug hbetween
    ⟨some c, none, before.contains "--debug", false, true⟩
    (.positional text :: after.map Word.ofArgument)
  obtain ⟨placed, h₃⟩ := Found.addWords_debug hafter
    ⟨some c, some (.text text), before.contains "--debug" || between.contains "--debug", false, true⟩
    []
  rw [List.append_nil] at h₃
  refine ⟨placed, ?_⟩
  rw [hcontains, List.map_append, List.map_cons, List.map_append, List.map_cons,
    Command.ofArgument_name, Word.ofArgument_of_not_minus htext, h₁, Found.addWords_command rfl]
  exact h₂.trans ((Found.addWords_text rfl rfl text _).trans h₃)

theorem ofArguments_eq (htext : text.toList.head? ≠ some '-')
    (h : withoutDebug args = [c.name, text]) :
    Request.ofArguments args = .ok ⟨c, .text text, args.contains "--debug"⟩ := by
  have hseparator : ∀ a ∈ args, (a != separator) = true := by
    intro a ha
    rw [bne_iff_ne]
    rintro rfl
    rcases eq_of_mem h ha with hd | hc | ht
    · exact absurd hd (by decide)
    · exact absurd hc (by cases c <;> decide)
    · exact htext (by rw [← ht]; rfl)
  have hambiguous : (args.map Word.ofArgument).contains .ambiguous = false := by
    rw [Bool.eq_false_iff, ne_eq, List.contains_iff_mem, List.mem_map]
    rintro ⟨a, ha, hword⟩
    rcases eq_of_mem h ha with rfl | rfl | rfl
    · rw [Word.ofArgument_debug] at hword
      cases hword
    · rw [Command.ofArgument_name] at hword
      cases hword
    · rw [Word.ofArgument_of_not_minus htext] at hword
      cases hword
  obtain ⟨placed, hfound⟩ := addWords_eq htext h
  rw [Request.ofArguments, List.takeWhile_eq_self_iff.2 hseparator,
    List.dropWhile_eq_nil_iff.2 hseparator]
  simp only [hambiguous, hfound]
  rfl

theorem ofArguments_pair (htext : text.toList.head? ≠ some '-') :
    Request.ofArguments [c.name, text] = .ok ⟨c, .text text, false⟩ := by
  have hname : c.name ≠ "--debug" := by cases c <;> decide
  have hdebug : text ≠ "--debug" := by
    rintro rfl
    exact htext rfl
  have hargs : withoutDebug [c.name, text] = [c.name, text] := by
    simp [withoutDebug, hname, hdebug]
  rw [ofArguments_eq htext hargs]
  simp [hname.symm, hdebug.symm]

end ParserKit.CommandLine

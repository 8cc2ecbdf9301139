import Mathlib.Data.List.Chain
import ParserKit.Proofs.Parser.Lexical
import ParserKit.Proofs.Text.Digit

namespace ParserKit

namespace RunLength

abbrev Runs := List (Nat × Char)

def push (c : Char) : Runs → Runs
  | (n, d) :: rest => if c = d then (n + 1, d) :: rest else (1, c) :: (n, d) :: rest
  | [] => [(1, c)]

def runs (s : Input) : Runs := s.foldr push []

def written (rs : Runs) : Input := rs.flatMap fun (n, c) => (toString n).toList ++ [c]

def expanded (rs : Runs) : Input := rs.flatMap fun (n, c) => List.replicate n c

theorem runs_cons (c : Char) (s : Input) : runs (c :: s) = push c (runs s) := rfl

theorem written_cons (n : Nat) (c : Char) (rs : Runs) :
    written ((n, c) :: rs) = (toString n).toList ++ c :: written rs := by
  simp [written]

theorem expanded_cons (n : Nat) (c : Char) (rs : Runs) :
    expanded ((n, c) :: rs) = List.replicate n c ++ expanded rs := rfl

theorem expanded_push (c : Char) (rs : Runs) : expanded (push c rs) = c :: expanded rs := by
  cases rs with
  | nil => rfl
  | cons run rs =>
    obtain ⟨n, d⟩ := run
    rw [push]
    split
    · next h =>
      subst h
      rw [expanded_cons, expanded_cons, List.replicate_succ, List.cons_append]
    · rfl

theorem expanded_runs (s : Input) : expanded (runs s) = s := by
  induction s with
  | nil => rfl
  | cons c s ih => rw [runs_cons, expanded_push, ih]

theorem runs_eq (c : Char) (s : Input) :
    runs (c :: s) = ((s.takeWhile (· == c)).length + 1, c) :: runs (s.dropWhile (· == c)) := by
  induction s generalizing c with
  | nil => rfl
  | cons d s ih =>
    rw [runs_cons, ih d]
    by_cases h : d = c
    · subst h
      rw [push, if_pos rfl, List.takeWhile_cons_of_pos (p := (· == d)) (beq_self_eq_true d),
        List.dropWhile_cons_of_pos (p := (· == d)) (beq_self_eq_true d)]
      rfl
    · have hne : ¬ (d == c) = true := fun he => h (eq_of_beq he)
      rw [push, if_neg (Ne.symm h), List.takeWhile_cons_of_neg (p := (· == c)) hne,
        List.dropWhile_cons_of_neg (p := (· == c)) hne, ih d]
      rfl

theorem mem_runs {s : Input} {n : Nat} {c : Char} (h : (n, c) ∈ runs s) :
    n ≤ s.length ∧ c ∈ s := by
  induction s generalizing n c with
  | nil => exact absurd h List.not_mem_nil
  | cons d s ih =>
    have hrest : (n, c) ∈ runs s → n ≤ (d :: s).length ∧ c ∈ d :: s := fun h =>
      ⟨Nat.le_succ_of_le (ih h).1, List.mem_cons_of_mem d (ih h).2⟩
    rw [runs_cons] at h
    cases hr : runs s with
    | nil =>
      rw [hr, push, List.mem_singleton] at h
      cases h
      exact ⟨Nat.succ_le_succ (Nat.zero_le _), List.mem_cons_self⟩
    | cons run rs =>
      obtain ⟨m, e⟩ := run
      rw [hr, push] at h
      rw [hr] at hrest
      split at h
      · next he =>
        subst he
        cases List.mem_cons.1 h with
        | inl h =>
          cases h
          have hm : m ≤ s.length := (ih (hr ▸ List.mem_cons_self)).1
          exact ⟨Nat.succ_le_succ hm, List.mem_cons_self⟩
        | inr h => exact hrest (List.mem_cons_of_mem _ h)
      · cases List.mem_cons.1 h with
        | inl h =>
          cases h
          exact ⟨Nat.succ_le_succ (Nat.zero_le _), List.mem_cons_self⟩
        | inr h => exact hrest h

/-- Runs as long as they can be: none is empty, and neighbours are of different characters. -/
structure Maximal (rs : Runs) : Prop where
  pos : ∀ run ∈ rs, 1 ≤ run.1
  chain : rs.IsChain fun a b => a.2 ≠ b.2

theorem maximal_push (c : Char) {rs : Runs} (h : Maximal rs) : Maximal (push c rs) := by
  cases rs with
  | nil => exact ⟨by simp [push], .singleton _⟩
  | cons run rs =>
    obtain ⟨n, d⟩ := run
    obtain ⟨hpos, hchain⟩ := h
    rw [List.forall_mem_cons] at hpos
    rw [push]
    split
    · refine ⟨List.forall_mem_cons.2 ⟨Nat.le_add_left 1 n, hpos.2⟩, ?_⟩
      rw [List.isChain_cons] at hchain ⊢
      exact hchain
    · next hne => exact ⟨by simpa using hpos, .cons_cons hne hchain⟩

theorem maximal_runs (s : Input) : Maximal (runs s) := by
  induction s with
  | nil => exact ⟨List.forall_mem_nil _, .nil⟩
  | cons c s ih => exact maximal_push c ih

theorem foldr_push_replicate (n : Nat) {c : Char} {rs : Runs}
    (h : ∀ run ∈ rs.head?, c ≠ run.2) :
    (List.replicate (n + 1) c).foldr push rs = (n + 1, c) :: rs := by
  induction n with
  | zero =>
    cases rs with
    | nil => rfl
    | cons run rs => exact if_neg (h run rfl)
  | succ n ih =>
    rw [List.replicate_succ, List.foldr_cons, ih, push, if_pos rfl]

theorem runs_expanded {rs : Runs} (h : Maximal rs) : runs (expanded rs) = rs := by
  induction rs with
  | nil => rfl
  | cons run rs ih =>
    obtain ⟨n, c⟩ := run
    obtain ⟨hpos, hchain⟩ := h
    rw [List.forall_mem_cons] at hpos
    rw [List.isChain_cons] at hchain
    obtain ⟨m, rfl⟩ : ∃ m, n = m + 1 := ⟨n - 1, by have := hpos.1; omega⟩
    have hrest : (expanded rs).foldr push [] = rs := ih ⟨hpos.2, hchain.2⟩
    rw [expanded_cons, runs, List.foldr_append, hrest, foldr_push_replicate m hchain.1]

end RunLength

end ParserKit

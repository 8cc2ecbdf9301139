import ParserKit.Grammar.Json
import ParserKit.Proofs.Json.Grammar
import ParserKit.Proofs.Language.Repetition

namespace ParserKit.Json

open Text ParserKit.Language

variable (ctx : Context) (s : Input)

theorem reads_string : Reads Quoted .text (fun _ => False) s (string.answer ctx s) := by
  have hp := Parser.ofClass_satisfy ctx (· != '\x22') "satisfy"
  have hinner : ∀ rest, s = '\x22' :: rest → Reads (.span (· != '\x22'))
      (fun w => .text (String.ofList w)) (Starts (· != '\x22')) rest
      ((Parser.satisfy (· != '\x22') "satisfy").many.concat.answer ctx rest) := fun rest _ =>
    Parser.reads_span (hp.answer_concat_eq rest)
  have hquoted : Reads ((Language.between (.span (· != '\x22')) '\x22' '\x22').map String.ofList)
      .text (fun _ => False) s (string.answer ctx s) := by
    rw [string, Parser.answer_named]
    exact (Reads.between hinner (fun _ => Bool.noConfusion) fun _ _ _ => rfl).recode
      fun _ _ _ => rfl
  refine hquoted.congr fun w t => ?_
  have hword : ∀ u : Input, (∀ c ∈ u, (c != '\x22') = true) ↔ '\x22' ∉ u := fun u => by
    simp only [bne_iff_ne]
    exact ⟨fun h hu => h _ hu rfl, fun h c hc heq => h (heq ▸ hc)⟩
  constructor
  · rintro ⟨_, ⟨u, rfl, rfl, hu⟩, rfl⟩
    exact .mk ((hword _).1 hu)
  · rintro ⟨hu⟩
    exact ⟨_, ⟨_, rfl, rfl, (hword _).2 hu⟩, rfl⟩

def startsInteger (c : Char) : Bool := c == '+' || c == '-' || isAsciiDigit c

theorem Integer.starts (w : Input) (n : Int) (h : Integer w n) : Starts startsInteger w := by
  cases h with
  | unsigned h => exact (run_starts _ _ h).mono fun c hc => by rw [startsInteger, hc, Bool.or_true]
  | plus _ => rfl
  | minus _ => rfl

theorem Integer.append_digit {w : Input} {n : Int} (h : Integer w n) {c : Char}
    (hc : isAsciiDigit c = true) : ∃ m, Integer (w ++ [c]) m := by
  cases h with
  | unsigned h => exact ⟨_, .unsigned (run_append h hc)⟩
  | plus h => exact ⟨_, .plus (run_append h hc)⟩
  | minus h => exact ⟨_, .minus (run_append h hc)⟩

abbrev Signed (c : Char) : Language Input :=
  ((Language.char c).seq (.run isAsciiDigit)).map Prod.snd

theorem Signed.starts (c : Char) (w a : Input) (h : Signed c w a) : Starts (· == c) w := by
  obtain ⟨_, ⟨_, _, rfl, rfl, _⟩, rfl⟩ := h
  exact beq_self_eq_true c

theorem reads_signed (c : Char) :
    Reads (Signed c) (fun w => .int (natOfDigits w)) (Starts isAsciiDigit) s
      (((Parser.char c).skipThen Parser.natural).answer ctx s) :=
  (Parser.reads_char ctx c s).skipThen (fun _ rest _ _ _ => Parser.reads_natural ctx rest)
    (fun _ _ => id) fun _ _ _ => rfl

theorem reads_integer :
    Reads Integer .int (Starts isAsciiDigit) s (Parser.integer.answer ctx s) := by
  have hminus : Reads ((Signed '-').map fun w => -(natOfDigits w : Int)) .int (Starts isAsciiDigit)
      s ((((Parser.char '-').skipThen Parser.natural).map Value.negated).answer ctx s) := by
    rw [Parser.answer_map]
    exact (reads_signed ctx s '-').apply (fun _ _ _ => rfl) fun _ _ _ => rfl
  have hplus : Reads ((Signed '+').map fun w => (natOfDigits w : Int)) .int (Starts isAsciiDigit) s
      (((Parser.char '+').skipThen Parser.natural).answer ctx s) :=
    (reads_signed ctx s '+').recode fun _ _ _ => rfl
  have hunsigned : Reads ((Language.run isAsciiDigit).map fun w => (natOfDigits w : Int)) .int
      (Starts isAsciiDigit) s (Parser.natural.answer ctx s) :=
    (Parser.reads_natural ctx s).recode fun _ _ _ => rfl
  have hminus_starts := map_starts (Signed.starts '-') fun w => -(natOfDigits w : Int)
  have hplus_starts := map_starts (Signed.starts '+') fun w => (natOfDigits w : Int)
  have hunsigned_starts :=
    map_starts (run_starts (f := isAsciiDigit)) fun w => (natOfDigits w : Int)
  have hpositive := hplus.orElse_of_disjoint (hunsigned.orElse_failed "no match" s)
    (disjoint_of_starts hplus_starts hunsigned_starts fun c hc => by rw [eq_of_beq hc]; rfl)
  simp only [Parser.integer, Parser.answer_named, Parser.answer_first_cons, Parser.answer_first_nil]
  refine (hminus.orElse_of_disjoint hpositive (disjoint_of_starts hminus_starts
    (union_starts hplus_starts hunsigned_starts) fun c hc => by rw [eq_of_beq hc]; rfl)).congr ?_
  · intro w n
    constructor
    · rintro (⟨a, ⟨⟨_, _⟩, ⟨_, _, rfl, rfl, hne, rfl, ha⟩, rfl⟩, rfl⟩ |
        ⟨a, ⟨⟨_, _⟩, ⟨_, _, rfl, rfl, hne, rfl, ha⟩, rfl⟩, rfl⟩ | ⟨_, ⟨hne, rfl, ha⟩, rfl⟩)
      · exact .minus ⟨hne, rfl, ha⟩
      · exact .plus ⟨hne, rfl, ha⟩
      · exact .unsigned ⟨hne, rfl, ha⟩
    · rintro (h | h | h)
      · exact .inr (.inr ⟨_, h, rfl⟩)
      · exact .inr (.inl ⟨_, ⟨((), _), ⟨_, _, rfl, rfl, h⟩, rfl⟩, rfl⟩)
      · exact .inl ⟨_, ⟨((), _), ⟨_, _, rfl, rfl, h⟩, rfl⟩, rfl⟩

end ParserKit.Json

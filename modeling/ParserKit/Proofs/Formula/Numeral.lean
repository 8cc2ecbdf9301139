import ParserKit.Grammar.Formula
import ParserKit.Proofs.Formula.Grammar
import ParserKit.Proofs.Language.Repetition

namespace ParserKit

open Text Formula

theorem ne_sign_of_isAsciiDigit {c : Char} (h : isAsciiDigit c = true) : c ≠ '-' ∧ c ≠ '+' := by
  constructor <;> rintro rfl <;> exact absurd h (by decide)

namespace Decimal

def isPlain (c : Char) : Bool := isAsciiDigit c || c == '.' || c == '+' || c == '-'

theorem toNat_of_isPlain {c : Char} (h : isPlain c = true) : 43 ≤ c.toNat ∧ c.toNat ≤ 57 := by
  simp only [isPlain, Bool.or_eq_true, beq_iff_eq] at h
  rcases h with ((h | rfl) | rfl) | rfl
  · have := toNat_of_isAsciiDigit h
    omega
  all_goals decide

theorem plainChar_eq {c : Char} (h : isPlain c = true) : plainChar c = c := by
  have := toNat_of_isPlain h
  rw [plainChar, if_pos (by omega)]

theorem isSpace_eq {c : Char} (h : isPlain c = true) : isSpace c = false := by
  have := toNat_of_isPlain h
  have hne : c ≠ ' ' := by rintro rfl; revert h; decide
  have hle : ¬ c ≤ '\r' := by
    rw [Char.le_def, UInt32.le_iff_toNat_le]
    show ¬ c.toNat ≤ 13
    omega
  simp [isSpace, hne, hle]

theorem dropWhile_eq {f : Char → Bool} {cs : List Char} (h : ∀ c ∈ cs, f c = false) :
    cs.dropWhile f = cs := by
  cases cs with
  | nil => rfl
  | cons c cs => exact List.dropWhile_cons_of_neg (by simp [h])

theorem trim_eq {cs : List Char} (h : ∀ c ∈ cs, isPlain c = true) : trim cs = cs := by
  have hs : ∀ c ∈ cs, isSpace c = false := fun c hc => isSpace_eq (h c hc)
  rw [trim, dropWhile_eq hs, dropWhile_eq (by simpa using hs), List.reverse_reverse]

theorem dropUnderscores?_eq {cs : List Char} (h : ∀ c ∈ cs, isPlain c = true) :
    dropUnderscores? cs = some cs := by
  fun_induction dropUnderscores? cs with
  | case1 => rfl
  | case2 cs => exact absurd (h '_' List.mem_cons_self) (by decide)
  | case3 c => rfl
  | case4 c d cs _ _ => exact absurd (h '_' (by simp)) (by decide)
  | case5 c d cs _ => exact absurd (h '_' (by simp)) (by decide)
  | case6 c d cs _ _ ih =>
    rw [ih fun c hc => h c (List.mem_cons_of_mem _ hc)]
    rfl

theorem toLower_eq {c : Char} (h : isAsciiDigit c = true) : c.toLower = c := by
  have hc := toNat_of_isAsciiDigit h
  apply dif_neg
  rintro ⟨hA, _⟩
  have hA : 65 ≤ c.toNat := hA
  omega

theorem ofList_digit_ne {c : Char} (h : isAsciiDigit c = true) {cs : List Char} {t : String}
    (ht : ¬ Starts isAsciiDigit t.toList) : String.ofList (c :: cs) ≠ t := by
  rintro rfl
  rw [String.toList_ofList] at ht
  exact ht h

theorem readMagnitude?_eq {c : Char} (h : isAsciiDigit c = true) (cs : List Char) :
    readMagnitude? (c :: cs) = readUnsigned? (c :: cs) := by
  rw [readMagnitude?, List.map_cons, toLower_eq h]
  split
  · next heq => exact absurd heq (ofList_digit_ne h (by decide))
  · next heq => exact absurd heq (ofList_digit_ne h (by decide))
  · next heq => exact absurd heq (ofList_digit_ne h (by decide))
  · rfl

theorem readUnsigned?_whole {a : List Char} (ha : Digits a) :
    readUnsigned? a = some (ofParts a []) := by
  obtain ⟨htake, hdrop⟩ := takeWhile_eq_self ha.2
  have hne : a.isEmpty = false := by simpa using ha.1
  simp [readUnsigned?, htake, hdrop, hne, readExponent?, ofParts]

theorem readUnsigned?_decimal {a b : List Char} (ha : Digits a) (hb : Digits b) :
    readUnsigned? (a ++ '.' :: b) = some (ofParts a b) := by
  have hdot : ¬ Starts isAsciiDigit ('.' :: b) := by simp [isAsciiDigit]
  obtain ⟨htake, hdrop⟩ := takeWhile_eq_self hb.2
  have hne : a.isEmpty = false := by simpa using ha.1
  simp [readUnsigned?, takeWhile_append ha.2 hdot, dropWhile_append ha.2 hdot, htake, hdrop, hne,
    readExponent?, ofParts]

theorem isPlain_of_isAsciiDigit {c : Char} (h : isAsciiDigit c = true) : isPlain c = true := by
  simp [isPlain, h]

theorem isPlain_of_mem_sign {sign : List Char} (hs : sign ∈ signs) :
    ∀ c ∈ sign, isPlain c = true := by
  revert sign
  simp [signs, isPlain]

theorem splitSign_append {sign : List Char} (hs : sign ∈ signs) {c : Char} (cs : List Char)
    (hc : isAsciiDigit c = true) :
    splitSign (sign ++ c :: cs) = (sign == ['-'], c :: cs) := by
  obtain ⟨hm, hp⟩ := ne_sign_of_isAsciiDigit hc
  simp only [signs, List.mem_cons, List.not_mem_nil, or_false] at hs
  rcases hs with rfl | rfl | rfl
  · rw [List.nil_append, splitSign]
    · rfl
    · exact fun _ h => hm (List.cons.inj h).1
    · exact fun _ h => hp (List.cons.inj h).1
  · rfl
  · rfl

theorem read?_eq {sign : List Char} (hs : sign ∈ signs) {c : Char} {cs : List Char}
    (hc : isAsciiDigit c = true) (h : ∀ d ∈ cs, isPlain d = true) :
    read? (String.ofList (sign ++ c :: cs)) =
      (readUnsigned? (c :: cs)).map (signed (sign == ['-'])) := by
  have hp : ∀ d ∈ sign ++ c :: cs, isPlain d = true := by
    intro d hd
    cases List.mem_append.1 hd with
    | inl hd => exact isPlain_of_mem_sign hs d hd
    | inr hd =>
      rcases List.mem_cons.1 hd with rfl | hd
      · exact isPlain_of_isAsciiDigit hc
      · exact h d hd
  have hmap : (sign ++ c :: cs).map plainChar = sign ++ c :: cs :=
    (List.map_congr_left fun d hd => plainChar_eq (hp d hd)).trans (List.map_id _)
  rw [read?, String.toList_ofList, hmap, trim_eq hp, dropUnderscores?_eq hp, Option.bind_some,
    splitSign_append hs cs hc]
  show (readMagnitude? (c :: cs)).map _ = _
  rw [readMagnitude?_eq hc]

theorem read?_whole {sign a : List Char} (hs : sign ∈ signs) (ha : Digits a) :
    read? (String.ofList (sign ++ a)) = some (signed (sign == ['-']) (ofParts a [])) := by
  have hu := readUnsigned?_whole ha
  obtain ⟨hne, hall⟩ := ha
  cases a with
  | nil => exact absurd rfl hne
  | cons c a =>
    rw [read?_eq hs (hall c List.mem_cons_self) fun d hd =>
      isPlain_of_isAsciiDigit (hall d (List.mem_cons_of_mem _ hd)), hu]
    rfl

theorem read?_decimal {sign a b : List Char} (hs : sign ∈ signs) (ha : Digits a)
    (hb : Digits b) : read? (String.ofList (sign ++ (a ++ '.' :: b))) =
      some (signed (sign == ['-']) (ofParts a b)) := by
  have hu := readUnsigned?_decimal ha hb
  obtain ⟨hne, hall⟩ := ha
  cases a with
  | nil => exact absurd rfl hne
  | cons c a =>
    have hp : ∀ d ∈ a ++ '.' :: b, isPlain d = true := by
      intro d hd
      cases List.mem_append.1 hd with
      | inl hd => exact isPlain_of_isAsciiDigit (hall d (List.mem_cons_of_mem _ hd))
      | inr hd =>
        rcases List.mem_cons.1 hd with rfl | hd
        · rfl
        · exact isPlain_of_isAsciiDigit (hb.2 d hd)
    rw [List.cons_append] at hu ⊢
    rw [read?_eq hs (hall c List.mem_cons_self) hp, hu]
    rfl

end Decimal

namespace Formula

open ParserKit.Language

def Fractional (sign : Input) : Language Float := fun w x =>
  ∃ a b, Digits a ∧ Digits b ∧ w = sign ++ (a ++ '.' :: b) ∧
    x = Decimal.signed (sign == ['-']) (Decimal.ofParts a b)

def Whole : Language Float := fun w x =>
  ∃ sign ∈ signs, ∃ a, Digits a ∧ w = sign ++ a ∧
    x = Decimal.signed (sign == ['-']) (Decimal.ofParts a [])

theorem numeral_iff {w : Input} {x : Float} :
    Numeral w x ↔ (∃ sign ∈ signs, Fractional sign w x) ∨ Whole w x := by
  constructor
  · rintro ⟨hw, hx⟩
    cases hw with
    | whole hs ha =>
      rw [Decimal.read?_whole hs ha] at hx
      exact .inr ⟨_, hs, _, ha, rfl, (Option.some.inj hx).symm⟩
    | decimal hs ha hb =>
      rw [Decimal.read?_decimal hs ha hb] at hx
      exact .inl ⟨_, hs, _, _, ha, hb, rfl, (Option.some.inj hx).symm⟩
  · rintro (⟨sign, hs, a, b, ha, hb, rfl, rfl⟩ | ⟨sign, hs, a, ha, rfl, rfl⟩)
    · exact ⟨.decimal hs ha hb, Decimal.read?_decimal hs ha hb⟩
    · exact ⟨.whole hs ha, Decimal.read?_whole hs ha⟩

theorem IsNumeral.isPlain {w : Input} (h : IsNumeral w) : ∀ c ∈ w, Decimal.isPlain c = true := by
  have hdigits : ∀ {a}, Digits a → ∀ c ∈ a, Decimal.isPlain c = true := fun ha c hc =>
    Decimal.isPlain_of_isAsciiDigit (ha.2 c hc)
  cases h with
  | whole hs ha =>
    exact List.forall_mem_append.2 ⟨Decimal.isPlain_of_mem_sign hs, hdigits ha⟩
  | decimal hs ha hb =>
    refine List.forall_mem_append.2 ⟨Decimal.isPlain_of_mem_sign hs, ?_⟩
    exact List.forall_mem_append.2 ⟨hdigits ha, List.forall_mem_cons.2 ⟨rfl, hdigits hb⟩⟩

variable (ctx : Context) (s : Input)

theorem reads_digits :
    Reads (.run isAsciiDigit) (fun w => .text (String.ofList w)) (Starts isAsciiDigit) s
      (digits.answer ctx s) :=
  (Parser.ofClass_satisfy ctx isAsciiDigit "digit").reads_concat1 s

def isNumeralPart (c : Char) : Bool := isAsciiDigit c || c == '.'

theorem not_starts_digit {c : Char} (hc : isAsciiDigit c = false) {rest : Input}
    (h : (Language.char c).Begins rest) : ¬ Starts isAsciiDigit rest := by
  obtain ⟨_, t, _, rfl, rfl⟩ := h
  simp [hc]

theorem reads_decimal :
    Reads (Fractional []) .float (Starts isAsciiDigit) s (decimal.answer ctx s) := by
  rw [decimal, Parser.answer_map]
  have h := (reads_digits ctx s).triple (Parser.reads_char ctx '.') (reads_digits ctx)
    (fun _ => not_starts_digit rfl) (fun _ _ => id)
  refine (h.apply (g := fun x => Decimal.ofParts x.1 x.2.2) (fun _ x _ => ?_)
    (fun _ _ _ => rfl)).congr ?_
  · simp [decimalOf, Value.chars]
  · intro w x
    constructor
    · rintro ⟨⟨a, _, b⟩, ⟨_, _, rfl, ⟨ha, rfl, ha'⟩, _, _, rfl, rfl, hb, rfl, hb'⟩, rfl⟩
      exact ⟨_, _, ⟨ha, ha'⟩, ⟨hb, hb'⟩, rfl, rfl⟩
    · rintro ⟨a, b, ha, hb, rfl, rfl⟩
      exact ⟨(a, (), b), ⟨a, _, rfl, ⟨ha.1, rfl, ha.2⟩, ['.'], b, rfl, rfl, hb.1, rfl, hb.2⟩, rfl⟩

theorem reads_after (c : Char) :
    Reads (((Language.char c).seq (Fractional [])).map Prod.snd) .float (Starts isAsciiDigit) s
      (((Parser.char c).skipThen decimal).answer ctx s) :=
  (Parser.reads_char ctx c s).skipThen (fun _ rest _ _ _ => reads_decimal ctx rest)
    (fun _ _ => id) (fun _ _ _ => rfl)

theorem reads_minus :
    Reads (Fractional ['-']) .float (Starts isAsciiDigit) s
      ((((Parser.char '-').skipThen decimal).map negated).answer ctx s) := by
  rw [Parser.answer_map]
  refine ((reads_after ctx s '-').apply (g := fun x => -x) (fun _ _ _ => rfl)
    (fun _ _ _ => rfl)).congr ?_
  intro w x
  constructor
  · rintro ⟨_, ⟨⟨_, _⟩, ⟨_, _, rfl, rfl, a, b, ha, hb, rfl, rfl⟩, rfl⟩, rfl⟩
    exact ⟨a, b, ha, hb, rfl, rfl⟩
  · rintro ⟨a, b, ha, hb, rfl, rfl⟩
    exact ⟨_, ⟨((), _), ⟨['-'], _, rfl, rfl, a, b, ha, hb, rfl, rfl⟩, rfl⟩, rfl⟩

theorem reads_plus :
    Reads (Fractional ['+']) .float (Starts isAsciiDigit) s
      (((Parser.char '+').skipThen decimal).answer ctx s) := by
  apply (reads_after ctx s '+').congr
  intro w x
  constructor
  · rintro ⟨⟨_, _⟩, ⟨_, _, rfl, rfl, a, b, ha, hb, rfl, rfl⟩, rfl⟩
    exact ⟨a, b, ha, hb, rfl, rfl⟩
  · rintro ⟨a, b, ha, hb, rfl, rfl⟩
    exact ⟨((), _), ⟨['+'], _, rfl, rfl, a, b, ha, hb, rfl, rfl⟩, rfl⟩

theorem sign_unique {sign sign' t t' : Input} (hs : sign ∈ signs) (hs' : sign' ∈ signs)
    (ht : Starts isAsciiDigit t) (ht' : Starts isAsciiDigit t') (h : sign ++ t = sign' ++ t') :
    sign = sign' ∧ t = t' := by
  simp only [signs, List.mem_cons, List.not_mem_nil, or_false] at hs hs'
  cases t with
  | nil => exact ht.elim
  | cons c t =>
    cases t' with
    | nil => exact ht'.elim
    | cons c' t' =>
      have hc := ne_sign_of_isAsciiDigit ht
      have hc' := ne_sign_of_isAsciiDigit ht'
      rcases hs with rfl | rfl | rfl <;> rcases hs' with rfl | rfl | rfl <;> grind

theorem Fractional.sign {sign : Input} {w : Input} {x : Float} (h : Fractional sign w x)
    (rest : Input) : ∃ t, w ++ rest = sign ++ t ∧ Starts isAsciiDigit t := by
  obtain ⟨a, b, ha, _, rfl, _⟩ := h
  refine ⟨a ++ '.' :: b ++ rest, by simp, ?_⟩
  rw [List.append_assoc]
  exact starts_of_cons ha.1 ha.2

theorem Fractional.disjoint {sign sign' : Input} (hs : sign ∈ signs) (hs' : sign' ∈ signs)
    (hne : sign ≠ sign') {s : Input} (h : (Fractional sign).Begins s) :
    ¬ (Fractional sign').Begins s := by
  rintro ⟨w', rest', x', hw', hx'⟩
  obtain ⟨w, rest, x, hw, hx⟩ := h
  obtain ⟨t, ht, hd⟩ := hx.sign rest
  obtain ⟨t', ht', hd'⟩ := hx'.sign rest'
  exact hne (sign_unique hs hs' hd hd' (by rw [← ht, ← ht', ← hw, ← hw'])).1

theorem Fractional.covers {sign : Input} (hs : sign ∈ signs) {s u rest w rest' : Input}
    {x y : Float} (hu : s = u ++ rest) (hx : Fractional sign u x) (hw : s = w ++ rest')
    (hy : Whole w y) : rest.length < rest'.length ∧ Starts isNumeralPart rest' := by
  obtain ⟨a, b, ha, hb, rfl, _⟩ := hx
  obtain ⟨sign', hs', a', ha', rfl, _⟩ := hy
  rw [hu, List.append_assoc, List.append_assoc, List.append_assoc] at hw
  have hdot : ¬ Starts isAsciiDigit ('.' :: b ++ rest) := by simp [isAsciiDigit]
  obtain ⟨_, h⟩ := sign_unique hs hs' (starts_of_cons ha.1 ha.2) (starts_of_cons ha'.1 ha'.2) hw
  rcases span_longest rfl ha'.2 with ⟨_, hr⟩ | ⟨hlt, hr⟩
  · rw [← h, dropWhile_append ha.2 hdot] at hr
    subst hr
    refine ⟨?_, rfl⟩
    simp only [List.length_append, List.length_cons]
    omega
  · rw [← h, dropWhile_append ha.2 hdot] at hlt
    refine ⟨?_, hr.mono fun c hc => by simp [isNumeralPart, hc]⟩
    simp at hlt
    omega

def signCode (sign : Input) : Value :=
  if sign = [] then .nothing else .text (String.ofList sign)

theorem reads_sign :
    Reads (fun w a => a = w ∧ w ∈ signs) signCode (Starts fun c => c == '-' || c == '+') s
      ((Parser.optional (.first [.char '-', .char '+'])).answer ctx s) := by
  have hchar : ∀ c, Reads ((Language.char c).map fun _ => [c]) signCode (fun _ => False) s
      ((Parser.char c).answer ctx s) := fun c =>
    (Parser.reads_char ctx c s).recode fun _ _ _ => by
      rw [String.singleton_eq_ofList]
      rfl
  have hboth := (hchar '-').orElse_of_disjoint
    ((hchar '+').orElse_failed "no match" s) (by
      rintro ⟨_, _, _, rfl, _, rfl, _⟩ ⟨_, _, _, hs, _, rfl, _⟩
      exact absurd (List.cons.inj hs).1 (by decide))
  have hpure : (Parser.succeed .nothing).answer ctx s = .matched (signCode []) s :=
    Parser.answer_succeed ctx rfl s
  simp only [Parser.optional, Parser.answer_named, Parser.answer_orElse, hpure,
    Parser.answer_first_cons, Parser.answer_first_nil]
  refine ((hboth.mono fun _ h => h.elim).orElse (fun _ => .empty _) ?_).congr ?_
  · rintro u rest _ _ rest' _ hs hu hs' ⟨rfl, _⟩
    have hs' : s = rest' := hs'
    subst hs'
    rcases hu with ⟨_, rfl, _⟩ | ⟨_, rfl, _⟩
    · exact ⟨by simp [hs], by rw [hs]; rfl⟩
    · exact ⟨by simp [hs], by rw [hs]; rfl⟩
  · intro w a
    simp only [signs, List.mem_cons, List.not_mem_nil, or_false]
    constructor
    · rintro ((⟨_, rfl, rfl⟩ | ⟨_, rfl, rfl⟩) | ⟨rfl, rfl⟩)
      · exact ⟨rfl, .inr (.inl rfl)⟩
      · exact ⟨rfl, .inr (.inr rfl)⟩
      · exact ⟨rfl, .inl rfl⟩
    · rintro ⟨rfl, rfl | rfl | rfl⟩
      · exact .inr ⟨rfl, rfl⟩
      · exact .inl (.inl ⟨(), rfl, rfl⟩)
      · exact .inl (.inr ⟨(), rfl, rfl⟩)

theorem reads_whole :
    Reads Whole .float (Starts isAsciiDigit) s (integer.answer ctx s) := by
  rw [integer, Parser.answer_map]
  have h := (reads_sign ctx s).pair_of_sep (fun _ rest _ _ _ => reads_digits ctx rest) (by
    intro rest hr hm
    have hr := hr.starts run_starts
    cases rest with
    | nil => exact hr
    | cons c rest =>
      simp only [starts_cons, Bool.or_eq_true, beq_iff_eq] at hr hm
      rcases hm with rfl | rfl <;> exact absurd hr (by decide))
  refine (h.apply (g := fun x => Decimal.signed (x.1 == ['-']) (Decimal.ofParts x.2 []))
    (fun _ x _ => ?_) (fun _ _ _ => rfl)).congr ?_
  · have hc : (signCode x.1).chars = x.1 := by
      rw [signCode]
      split
      · next h => rw [h]; rfl
      · exact String.toList_ofList
    show Except.ok (Value.float (Decimal.signed ((signCode x.1).chars == ['-'])
      (Decimal.ofParts (String.ofList x.2).toList []))) = _
    rw [hc, String.toList_ofList]
  · intro w x
    constructor
    · rintro ⟨⟨sign, a⟩, ⟨_, _, rfl, ⟨rfl, hs⟩, hne, rfl, ha⟩, rfl⟩
      exact ⟨_, hs, _, ⟨hne, ha⟩, rfl, rfl⟩
    · rintro ⟨sign, hs, a, ha, rfl, rfl⟩
      exact ⟨(sign, a), ⟨sign, a, rfl, ⟨rfl, hs⟩, ha.1, rfl, ha.2⟩, rfl⟩

theorem reads_number :
    Reads Numeral (fun x => .expr (.number x)) (Starts isNumeralPart) s
      (number.answer ctx s) := by
  have hpart : ∀ rest, Starts isAsciiDigit rest → Starts isNumeralPart rest := fun rest h =>
    h.mono fun c hc => by simp [isNumeralPart, hc]
  have hsigned := (reads_minus ctx s).orElse_of_disjoint
    ((reads_plus ctx s).orElse_failed "no match" s)
    (Fractional.disjoint (by decide) (by decide) (by decide))
  have hwhole := (reads_whole ctx s).orElse_failed "no match" s
  have hrest := (hsigned.mono hpart).orElse (fun _ => hwhole.mono hpart) (by
    rintro u rest x w rest' y hu (hx | hx) hw hy
    · exact Fractional.covers (by decide) hu hx hw hy
    · exact Fractional.covers (by decide) hu hx hw hy)
  have hall := ((reads_decimal ctx s).mono hpart).orElse (fun _ => hrest) (by
    rintro u rest x w rest' y hu hx hw ((hy | hy) | hy)
    · exact absurd ⟨w, rest', y, hw, hy⟩
        (Fractional.disjoint (by decide) (by decide) (by decide) ⟨u, rest, x, hu, hx⟩)
    · exact absurd ⟨w, rest', y, hw, hy⟩
        (Fractional.disjoint (by decide) (by decide) (by decide) ⟨u, rest, x, hu, hx⟩)
    · exact Fractional.covers (by decide) hu hx hw hy)
  rw [number, Parser.answer_named, Parser.answer_map, Parser.answer_first_cons,
    Parser.answer_first_cons, Parser.answer_first_cons, Parser.answer_first_nil, signedDecimal,
    Parser.answer_first_cons, Parser.answer_first_cons, Parser.answer_first_nil]
  refine Reads.congr (hall.apply (f := fun v => .ok (numberOf v)) (g := id) (fun _ _ _ => rfl)
    fun _ _ _ => rfl) fun w x => ?_
  rw [numeral_iff]
  simp only [signs, List.mem_cons, List.not_mem_nil, or_false, exists_eq_or_imp, exists_eq_left,
    Language.map, Language.union, id, exists_eq_right]
  grind

end Formula

end ParserKit

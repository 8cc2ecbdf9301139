import Mathlib.Data.Nat.Digits.Defs
import ParserKit.Text.Quoted

namespace ParserKit.Text

def hexValue (c : Char) : Nat := if c.toNat < 58 then c.toNat - 48 else c.toNat - 87

def readHex (cs : List Char) : Nat := cs.foldl (fun n c => 16 * n + hexValue c) 0

theorem hexValue_hexDigit : ∀ n < 16, hexValue (hexDigit n) = n := by decide

@[simp] theorem readHex_append_singleton (cs : List Char) (c : Char) :
    readHex (cs ++ [c]) = 16 * readHex cs + hexValue c := by
  simp [readHex]

theorem readHex_hexDigits (width n : Nat) : readHex (hexDigits width n) = n % 16 ^ width := by
  induction width generalizing n with
  | zero => simp [hexDigits, readHex, Nat.mod_one]
  | succ width ih =>
    have hlast : n % 16 < 16 := Nat.mod_lt n (by decide)
    rw [hexDigits, readHex_append_singleton, ih, hexValue_hexDigit _ hlast, Nat.pow_succ',
      Nat.mod_mul, Nat.add_comm]

def readCode (width : Nat) (cs : List Char) : Option (Char × List Char) :=
  some (Char.ofNat (readHex (cs.take width)), cs.drop width)

theorem readCode_append (width : Nat) {c : Char} (h : c.toNat < 16 ^ width) (s : List Char) :
    readCode width (hexDigits width c.toNat ++ s) = some (c, s) := by
  have hlen := length_hexDigits width c.toNat
  rw [readCode, List.take_left' hlen, List.drop_left' hlen, readHex_hexDigits, Nat.mod_eq_of_lt h,
    Char.ofNat_toNat]

def readEscaped : List Char → Option (Char × List Char)
  | [] => none
  | 'n' :: s => some ('\n', s)
  | 'r' :: s => some ('\r', s)
  | 't' :: s => some ('\t', s)
  | 'x' :: s => readCode 2 s
  | 'u' :: s => readCode 4 s
  | 'U' :: s => readCode 8 s
  | c :: s => some (c, s)

def readChar : List Char → Option (Char × List Char)
  | [] => none
  | '\\' :: s => readEscaped s
  | c :: s => some (c, s)

theorem readChar_of_ne {c : Char} (h : c ≠ '\\') (s : List Char) :
    readChar (c :: s) = some (c, s) := by
  rw [readChar]
  exact h

theorem readChar_escapeCode (c : Char) (s : List Char) :
    readChar (escapeCode c.toNat ++ s) = some (c, s) := by
  have hc : c.toNat < 0x110000 := by
    rcases c.valid with h | ⟨_, h⟩
    · exact Nat.lt_trans h (by decide)
    · exact h
  rw [escapeCode]
  split
  case isTrue h => exact readCode_append 2 h s
  split
  case isTrue h => exact readCode_append 4 h s
  case isFalse => exact readCode_append 8 (Nat.lt_trans hc (by decide)) s

def IsQuote (q : Char) : Prop := q = '\x27' ∨ q = '\x22'

theorem isQuote_quoteFor (cs : List Char) : IsQuote (quoteFor cs) := by
  rw [quoteFor]
  split
  · exact .inr rfl
  · exact .inl rfl

variable {q : Char}

theorem IsQuote.ne_backslash (hq : IsQuote q) : q ≠ '\\' := by
  rcases hq with rfl | rfl <;> decide

theorem readChar_escape_quote (hq : IsQuote q) (s : List Char) :
    readChar ('\\' :: q :: s) = some (q, s) := by
  rcases hq with rfl | rfl <;> rfl

theorem readChar_escape (hq : IsQuote q) (c : Char) (s : List Char) :
    readChar (escape q c ++ s) = some (c, s) := by
  rw [escape]
  split
  case isTrue h =>
    simp only [Bool.or_eq_true, beq_iff_eq] at h
    rcases h with rfl | rfl
    · exact readChar_escape_quote hq s
    · rfl
  case isFalse hself =>
    simp only [Bool.or_eq_true, beq_iff_eq, not_or] at hself
    split
    case isTrue h => rw [eq_of_beq h]; rfl
    split
    case isTrue h => rw [eq_of_beq h]; rfl
    split
    case isTrue h => rw [eq_of_beq h]; rfl
    split
    case isTrue => exact readChar_of_ne hself.2 s
    case isFalse => exact readChar_escapeCode c s

theorem escape_append_ne (hq : IsQuote q) (c : Char) (s t : List Char) :
    escape q c ++ s ≠ q :: t := by
  intro h
  have hread := readChar_escape hq c s
  rw [h, readChar_of_ne hq.ne_backslash] at hread
  cases hread
  rw [escape, beq_self_eq_true, Bool.true_or, if_pos rfl] at h
  exact hq.ne_backslash (List.cons.inj h).1.symm

variable {cs ds s t : List Char}

theorem flatMap_escape_append_inj (hq : IsQuote q)
    (h : cs.flatMap (escape q) ++ q :: s = ds.flatMap (escape q) ++ q :: t) :
    cs = ds ∧ s = t := by
  induction cs generalizing ds with
  | nil =>
    cases ds with
    | nil => exact ⟨rfl, (List.cons.inj h).2⟩
    | cons d ds =>
      rw [List.flatMap_cons, List.append_assoc] at h
      exact absurd h.symm (escape_append_ne hq d _ _)
  | cons c cs ih =>
    cases ds with
    | nil =>
      rw [List.flatMap_cons, List.append_assoc] at h
      exact absurd h (escape_append_ne hq c _ _)
    | cons d ds =>
      rw [List.flatMap_cons, List.flatMap_cons, List.append_assoc, List.append_assoc] at h
      have hread := congrArg readChar h
      rw [readChar_escape hq, readChar_escape hq] at hread
      obtain ⟨rfl, hrest⟩ := Prod.mk.inj (Option.some.inj hread)
      obtain ⟨rfl, rfl⟩ := ih hrest
      exact ⟨rfl, rfl⟩

theorem quotedChars_append_inj (h : quotedChars cs ++ s = quotedChars ds ++ t) :
    cs = ds ∧ s = t := by
  simp only [quotedChars, List.cons_append, List.append_assoc, List.nil_append]
    at h
  obtain ⟨hquote, h⟩ := List.cons.inj h
  rw [← hquote] at h
  exact flatMap_escape_append_inj (isQuote_quoteFor cs) h

theorem quoted_append_inj {a b : String} (h : (quoted a).toList ++ s = (quoted b).toList ++ t) :
    a = b ∧ s = t := by
  rw [quoted, quoted, String.toList_ofList, String.toList_ofList] at h
  exact (quotedChars_append_inj h).imp_left String.toList_injective

end ParserKit.Text

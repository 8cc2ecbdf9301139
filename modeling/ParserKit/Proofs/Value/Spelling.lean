import ParserKit.Proofs.Parser.Integer
import ParserKit.Proofs.Text.Quoted
import ParserKit.Value.Display

namespace ParserKit

open Text

section Items

variable {α : Type} {written : α → String} {close : Char} {xs ys : List α} {s t : Input}

def ToldApart (written : α → String) (x y : α) : Prop :=
  ∀ ⦃s t : Input⦄, ¬ Starts isAsciiDigit s → ¬ Starts isAsciiDigit t →
    (written x).toList ++ s = (written y).toList ++ t → x = y ∧ s = t

theorem ToldApart.refl (x : α) : ToldApart written x x :=
  fun _ _ _ _ h => ⟨rfl, List.append_cancel_left h⟩

def following (written : α → String) (close : Char) (xs : List α) (s : Input) : Input :=
  xs.flatMap (fun x => ',' :: ' ' :: (written x).toList) ++ close :: s

theorem following_cons (x : α) :
    following written close (x :: xs) s =
      ',' :: ' ' :: ((written x).toList ++ following written close xs s) := by
  simp [following]

theorem commaSeparated_cons (x : α) :
    (commaSeparated ((x :: xs).map written)).toList ++ close :: s =
      (written x).toList ++ following written close xs s := by
  induction xs generalizing x with
  | nil => simp [commaSeparated, following]
  | cons y xs ih =>
    rw [following_cons, ← ih, commaSeparated, commaSeparated, List.map_cons, List.map_cons,
      String.toList_intercalate, String.toList_intercalate, List.map_cons, List.map_cons,
      List.intercalate_cons_cons]
    simp

theorem not_starts_following (hclose : isAsciiDigit close = false) :
    ¬ Starts isAsciiDigit (following written close xs s) := by
  cases xs with
  | nil => simp [following, hclose]
  | cons x xs =>
    rw [following_cons]
    exact Bool.false_ne_true

theorem following_inj (hdigit : isAsciiDigit close = false) (hcomma : close ≠ ',')
    (hxy : ∀ x ∈ xs, ∀ y ∈ ys, ToldApart written x y)
    (h : following written close xs s = following written close ys t) : xs = ys ∧ s = t := by
  induction xs generalizing ys with
  | nil =>
    cases ys with
    | nil => exact ⟨rfl, (List.cons.inj h).2⟩
    | cons y ys =>
      rw [following_cons] at h
      exact absurd (List.cons.inj h).1 hcomma
  | cons x xs ih =>
    cases ys with
    | nil =>
      rw [following_cons] at h
      exact absurd (List.cons.inj h).1.symm hcomma
    | cons y ys =>
      rw [following_cons, following_cons] at h
      have hitem := (List.cons.inj (List.cons.inj h).2).2
      obtain ⟨rfl, hrest⟩ := hxy x List.mem_cons_self y List.mem_cons_self
        (not_starts_following hdigit) (not_starts_following hdigit) hitem
      obtain ⟨rfl, rfl⟩ := ih (fun x hx y hy =>
        hxy x (List.mem_cons_of_mem _ hx) y (List.mem_cons_of_mem _ hy)) hrest
      exact ⟨rfl, rfl⟩

theorem commaSeparated_inj (hdigit : isAsciiDigit close = false) (hcomma : close ≠ ',')
    (hopen : ∀ x ∈ xs ++ ys, ∀ s, ((written x).toList ++ s).head? ≠ some close)
    (hxy : ∀ x ∈ xs, ∀ y ∈ ys, ToldApart written x y)
    (h : (commaSeparated (xs.map written)).toList ++ close :: s =
      (commaSeparated (ys.map written)).toList ++ close :: t) : xs = ys ∧ s = t := by
  cases xs with
  | nil =>
    cases ys with
    | nil => exact ⟨rfl, (List.cons.inj h).2⟩
    | cons y ys =>
      rw [commaSeparated_cons] at h
      exact absurd (congrArg List.head? h).symm (hopen y (by simp) _)
  | cons x xs =>
    cases ys with
    | nil =>
      rw [commaSeparated_cons] at h
      exact absurd (congrArg List.head? h) (hopen x (by simp) _)
    | cons y ys =>
      rw [commaSeparated_cons, commaSeparated_cons] at h
      have hrow : following written close (x :: xs) s = following written close (y :: ys) t := by
        rw [following_cons, following_cons, h]
      exact following_inj hdigit hcomma hxy hrow

end Items

namespace Value

theorem spellings_eq (vs : List Value) : spellings vs = vs.map spelling := by
  induction vs with
  | nil => rfl
  | cons v vs ih => exact congrArg (spelling v :: ·) ih

def entrySpelling (entry : String × Value) : String := quoted entry.1 ++ ": " ++ spelling entry.2

theorem entrySpellings_eq (entries : List (String × Value)) :
    entrySpellings entries = entries.map entrySpelling := by
  induction entries with
  | nil => rfl
  | cons entry entries ih => exact congrArg (entrySpelling entry :: ·) ih

/-- Values without other parts than nothing, truth values, whole numbers and texts. -/
inductive Data : Value → Prop
  | nothing : Data .nothing
  | bool (b : Bool) : Data (.bool b)
  | int (n : Int) : Data (.int n)
  | text (a : String) : Data (.text a)
  | list {vs : List Value} : (∀ v ∈ vs, Data v) → Data (.list vs)
  | dict {entries : List (String × Value)} : (∀ entry ∈ entries, Data entry.2) →
      Data (.dict entries)

theorem toList_spelling_nothing : nothing.spelling.toList = ['N', 'o', 'n', 'e'] := rfl

theorem toList_spelling_bool (b : Bool) : (bool b).spelling.toList =
    if b then ['T', 'r', 'u', 'e'] else ['F', 'a', 'l', 's', 'e'] := by
  cases b <;> rfl

theorem toList_spelling_int (n : Int) : (int n).spelling.toList = (toString n).toList := rfl

theorem toList_spelling_text (a : String) : (text a).spelling.toList = (quoted a).toList := rfl

theorem toList_spelling_list (vs : List Value) : (list vs).spelling.toList =
    '[' :: ((commaSeparated (vs.map spelling)).toList ++ [']']) := by
  have h : (list vs).spelling = "[" ++ commaSeparated (spellings vs) ++ "]" := rfl
  rw [h, spellings_eq, String.toList_append, String.toList_append]
  rfl

theorem toList_spelling_dict (entries : List (String × Value)) : (dict entries).spelling.toList =
    '\x7b' :: ((commaSeparated (entries.map entrySpelling)).toList ++ ['\x7d']) := by
  have h : (dict entries).spelling =
      "\x7b" ++ commaSeparated (entrySpellings entries) ++ "\x7d" := rfl
  rw [h, entrySpellings_eq, String.toList_append, String.toList_append]
  rfl

inductive Kind
  | nothing
  | truth
  | number
  | text
  | list
  | dict

def Kind.ofChar? (c : Char) : Option Kind :=
  if Json.startsInteger c then some number
  else if c == 'N' then some nothing
  else if c == 'T' || c == 'F' then some truth
  else if c == '\x27' || c == '\x22' then some text
  else if c == '[' then some list
  else if c == '\x7b' then some dict
  else none

def kind? : Value → Option Kind
  | nothing => some .nothing
  | bool _ => some .truth
  | int _ => some .number
  | text _ => some .text
  | list _ => some .list
  | dict _ => some .dict
  | _ => none

variable {v w : Value} {s t : Input}

theorem head?_quoted (a : String) (s : Input) :
    ((quoted a).toList ++ s).head? = some (quoteFor a.toList) := by
  rw [quoted, String.toList_ofList]
  rfl

theorem Kind.ofChar?_quoteFor (cs : List Char) : ofChar? (quoteFor cs) = some text := by
  rcases isQuote_quoteFor cs with h | h <;> rw [h] <;> rfl

theorem Data.head? (hv : Data v) (s : Input) :
    (v.spelling.toList ++ s).head?.bind Kind.ofChar? = v.kind? := by
  cases hv with
  | nothing => rw [toList_spelling_nothing]; rfl
  | bool b => rw [toList_spelling_bool]; cases b <;> rfl
  | int n =>
    have hstarts := (Json.Integer.starts _ n (Json.integer_toString n)).append s
    rw [toList_spelling_int]
    cases h : (toString n).toList ++ s with
    | nil =>
      rw [h] at hstarts
      exact hstarts.elim
    | cons c u =>
      rw [h] at hstarts
      exact if_pos hstarts
  | text a =>
    rw [toList_spelling_text, head?_quoted]
    exact Kind.ofChar?_quoteFor a.toList
  | list _ => rw [toList_spelling_list]; rfl
  | dict _ => rw [toList_spelling_dict]; rfl

theorem Data.kind?_eq (hv : Data v) (hw : Data w)
    (h : v.spelling.toList ++ s = w.spelling.toList ++ t) : v.kind? = w.kind? := by
  rw [← hv.head? s, h, hw.head? t]

theorem Data.head?_ne (hv : Data v) {c : Char} (hc : Kind.ofChar? c = none) (s : Input) :
    (v.spelling.toList ++ s).head? ≠ some c := by
  intro h
  have hkind := hv.head? s
  rw [h, Option.bind_some, hc] at hkind
  cases hv <;> cases hkind

theorem toldApart_bool (b c : Bool) : ToldApart spelling (.bool b) (.bool c) := by
  cases b <;> cases c
  · exact .refl _
  · intro s t _ _ h
    cases h
  · intro s t _ _ h
    cases h
  · exact .refl _

theorem toldApart_int (n m : Int) : ToldApart spelling (.int n) (.int m) := by
  intro s t hs ht h
  obtain ⟨rfl, rfl⟩ :=
    Parser.integer_append_inj (Json.integer_toString n) (Json.integer_toString m) hs ht h
  exact ⟨rfl, rfl⟩

theorem toldApart_text (a b : String) : ToldApart spelling (.text a) (.text b) := by
  intro s t _ _ h
  obtain ⟨rfl, rfl⟩ := quoted_append_inj h
  exact ⟨rfl, rfl⟩

theorem toList_entrySpelling (entry : String × Value) (s : Input) :
    (entrySpelling entry).toList ++ s =
      (quoted entry.1).toList ++ (':' :: ' ' :: (entry.2.spelling.toList ++ s)) := by
  rw [entrySpelling, String.toList_append, String.toList_append, List.append_assoc,
    List.append_assoc]
  rfl

theorem toldApart_entry {entry entry' : String × Value}
    (h : ToldApart spelling entry.2 entry'.2) : ToldApart entrySpelling entry entry' := by
  intro s t hs ht heq
  rw [toList_entrySpelling, toList_entrySpelling] at heq
  obtain ⟨hkey, heq⟩ := quoted_append_inj heq
  obtain ⟨hvalue, hrest⟩ := h hs ht (List.cons.inj (List.cons.inj heq).2).2
  exact ⟨Prod.ext hkey hvalue, hrest⟩

theorem head?_entry_ne (entry : String × Value) (s : Input) :
    ((entrySpelling entry).toList ++ s).head? ≠ some '\x7d' := by
  intro h
  rw [toList_entrySpelling, head?_quoted] at h
  have hkind := Kind.ofChar?_quoteFor entry.1.toList
  rw [Option.some.inj h] at hkind
  cases hkind

theorem toldApart_list {vs ws : List Value} (hvs : ∀ v ∈ vs, Data v) (hws : ∀ w ∈ ws, Data w)
    (h : ∀ v ∈ vs, ∀ w ∈ ws, ToldApart spelling v w) :
    ToldApart spelling (.list vs) (.list ws) := by
  intro s t _ _ heq
  rw [toList_spelling_list, toList_spelling_list, List.cons_append, List.cons_append,
    List.append_assoc, List.append_assoc] at heq
  have hopen (v : Value) (hv : v ∈ vs ++ ws) := ((List.mem_append.1 hv).elim (hvs v) (hws v)).head?_ne
    (c := ']') rfl
  obtain ⟨rfl, rfl⟩ := commaSeparated_inj rfl (by decide) hopen h (List.cons.inj heq).2
  exact ⟨rfl, rfl⟩

theorem toldApart_dict {es fs : List (String × Value)}
    (h : ∀ e ∈ es, ∀ f ∈ fs, ToldApart spelling e.2 f.2) :
    ToldApart spelling (.dict es) (.dict fs) := by
  intro s t _ _ heq
  rw [toList_spelling_dict, toList_spelling_dict, List.cons_append, List.cons_append,
    List.append_assoc, List.append_assoc] at heq
  obtain ⟨rfl, rfl⟩ := commaSeparated_inj rfl (by decide) (fun e _ => head?_entry_ne e)
    (fun e he f hf => toldApart_entry (h e he f hf)) (List.cons.inj heq).2
  exact ⟨rfl, rfl⟩

theorem toldApart_of_kind (hv : Data v) (hw : Data w)
    (h : v.kind? = w.kind? → ToldApart spelling v w) : ToldApart spelling v w :=
  fun _ _ hs ht heq => h (hv.kind?_eq hw heq) hs ht heq

theorem Data.toldApart (hv : Data v) (hw : Data w) : ToldApart spelling v w := by
  induction hv generalizing w with
  | nothing =>
    refine toldApart_of_kind .nothing hw fun hkind => ?_
    cases hw with
    | nothing => exact .refl _
    | _ => cases hkind
  | bool b =>
    refine toldApart_of_kind (.bool b) hw fun hkind => ?_
    cases hw with
    | bool c => exact toldApart_bool b c
    | _ => cases hkind
  | int n =>
    refine toldApart_of_kind (.int n) hw fun hkind => ?_
    cases hw with
    | int m => exact toldApart_int n m
    | _ => cases hkind
  | text a =>
    refine toldApart_of_kind (.text a) hw fun hkind => ?_
    cases hw with
    | text b => exact toldApart_text a b
    | _ => cases hkind
  | list hvs ih =>
    refine toldApart_of_kind (.list hvs) hw fun hkind => ?_
    cases hw with
    | list hws => exact toldApart_list hvs hws fun v hv w hw => ih v hv (hws w hw)
    | _ => cases hkind
  | dict hes ih =>
    refine toldApart_of_kind (.dict hes) hw fun hkind => ?_
    cases hw with
    | dict hfs => exact toldApart_dict fun e he f hf => ih e he (hfs f hf)
    | _ => cases hkind

theorem Data.spelling_inj (hv : Data v) (hw : Data w) (h : v.spelling = w.spelling) : v = w :=
  (hv.toldApart hw (starts_nil _) (starts_nil _) (congrArg (·.toList ++ []) h)).1

end Value

end ParserKit

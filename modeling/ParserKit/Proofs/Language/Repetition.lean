import ParserKit.Proofs.Parser.Lexical

namespace ParserKit.Reads

open ParserKit.Language

variable {α β : Type} {L : Language α} {M : Language β} {code : α → Value} {code' : β → Value}
  {More More' : Input → Prop} {s : Input} {ctx : Context} {p q : Parser}

def listCode (code : α → Value) (as : List α) : Value := .list (as.map code)

theorem star_nil (h : ¬ L.Begins s) :
    Reads L.Star (listCode code) More s (.matched (.list []) s) := by
  apply Reads.matched (a := []) (List.nil_append s).symm .nil
  intro w rest as hs hw
  cases hw with
  | nil => exact .inl ⟨rfl, hs.symm⟩
  | cons hu _ =>
    rw [List.append_assoc] at hs
    exact absurd ⟨_, _, _, hs, hu⟩ h

theorem star_cons {v : Value} {vs : List Value} {t t' : Input}
    (h : Reads L code More s (.matched v t)) (hlt : t.length < s.length)
    (hvs : Reads L.Star (listCode code) (fun rest => More rest ∨ L.Begins rest) t
      (.matched (.list vs) t'))
    (sep : ∀ rest, L.Begins rest → ¬ More rest) :
    Reads L.Star (listCode code) (fun rest => More rest ∨ L.Begins rest) s
      (.matched (.list (v :: vs)) t') := by
  cases h with
  | @matched u a _ hs ha hc =>
    generalize hlist : Value.list vs = list at hvs
    cases hvs with
    | @matched w as _ ht hw hc' =>
      cases hlist
      have hle : t'.length ≤ t.length := by simp [ht]
      apply Reads.matched (a := a :: as) (by simp [hs, ht]) (.cons ha hw)
      intro w' rest' as' hs' hw'
      cases hw' with
      | nil =>
        have hs'' : s = rest' := hs'
        exact .inr ⟨hs'' ▸ Nat.lt_of_le_of_lt hle hlt, .inr (hs'' ▸ ⟨u, t, a, hs, ha⟩)⟩
      | @cons u' v' a' as' hu' hv' =>
        rw [List.append_assoc] at hs'
        rcases hc hs' hu' with ⟨hcode, hrest⟩ | ⟨hlt', hm⟩
        · refine (hc' hrest.symm hv').imp_left fun ⟨hlist, hrest'⟩ => ⟨?_, hrest'⟩
          injection hlist with hlist
          simp only [listCode, List.map_cons, hcode, hlist]
        · cases hv' with
          | nil => exact .inr ⟨Nat.lt_of_le_of_lt hle hlt', .inl hm⟩
          | cons hu _ => exact absurd hm (sep _ ⟨_, _, _, List.append_assoc .., hu⟩)

theorem many (hp : ∀ u rest, s = u ++ rest → Reads L code More rest (p.answer ctx rest))
    (ne : ∀ w a, L w a → w ≠ []) (sep : ∀ rest, L.Begins rest → ¬ More rest) :
    Reads L.Star (listCode code) (fun rest => More rest ∨ L.Begins rest) s
      (p.many.answer ctx s) := by
  induction hn : s.length using Nat.strongRecOn generalizing s with
  | _ n ih =>
    subst hn
    have h₀ := hp [] s rfl
    rw [Parser.answer_many]
    cases h : p.answer ctx s with
    | raised fault => rw [h] at h₀; cases h₀
    | failed reason t =>
      rw [h] at h₀
      rw [Parser.answers_of_failed h]
      exact star_nil h₀.not_begins
    | matched v t =>
      rw [h] at h₀
      obtain ⟨u, a, hs, ha, -⟩ := h₀.exists_word
      have hlt : t.length < s.length := by simp [hs, List.length_pos_iff.2 (ne u a ha)]
      have ih := ih t.length hlt (fun u' rest ht => hp (u ++ u') rest (by simp [hs, ht])) rfl
      rw [Parser.answer_many] at ih
      rw [Parser.answers_of_matched h hlt]
      cases hr : p.answers ctx t with
      | failed reason t' =>
        rw [hr] at ih
        exact absurd ⟨[], t, [], rfl, .nil⟩ ih.not_begins
      | raised fault => rw [hr] at ih; cases ih
      | matched vs t' =>
        rw [hr] at ih
        exact star_cons h₀ hlt ih sep

theorem skipThen (hp : Reads L code More s (p.answer ctx s))
    (hq : ∀ u rest a, s = u ++ rest → L u a → Reads M code' More' rest (q.answer ctx rest))
    (sep : ∀ rest, M.Begins rest → ¬ More rest)
    (ok : ∀ w b, M w b → (code' b).isFailure = false) :
    Reads ((L.seq M).map Prod.snd) code' More' s ((p.skipThen q).answer ctx s) := by
  rw [Parser.skipThen, Parser.answer_map]
  refine (hp.pair_of_sep hq sep).apply (fun _ _ _ => rfl) ?_
  rintro w ⟨a, b⟩ ⟨_, v, _, _, hb⟩
  exact ok v b hb

theorem thenSkip (hp : Reads L code More s (p.answer ctx s))
    (hq : ∀ u rest a, s = u ++ rest → L u a → Reads M code' More' rest (q.answer ctx rest))
    (sep : ∀ v rest b, M v b → More (v ++ rest) → v = [] ∧ More' rest)
    (ok : ∀ w a, L w a → (code a).isFailure = false) :
    Reads ((L.seq M).map Prod.fst) code More' s ((p.thenSkip q).answer ctx s) := by
  rw [Parser.thenSkip, Parser.answer_map]
  refine (hp.pair hq sep).apply (fun _ _ _ => rfl) ?_
  rintro w ⟨a, b⟩ ⟨u, _, _, ha, _⟩
  exact ok u a ha

theorem between {l r : Char}
    (hp : ∀ rest, s = l :: rest → Reads L code More rest (p.answer ctx rest))
    (sep : ∀ rest, ¬ More (r :: rest)) (ok : ∀ w a, L w a → (code a).isFailure = false) :
    Reads (L.between l r) code (fun _ => False) s
      ((Parser.between (.char l) p (.char r)).answer ctx s) := by
  have hsep : ∀ v rest b, Language.char r v b → More (v ++ rest) → v = [] ∧ False := by
    rintro _ rest _ rfl hm
    exact absurd hm (sep rest)
  have hinner : ∀ u rest a, s = u ++ rest → Language.char l u a →
      Reads ((L.seq (.char r)).map Prod.fst) code (fun _ => False) rest
        ((p.thenSkip (.char r)).answer ctx rest) := by
    rintro _ rest _ hs rfl
    exact (hp rest hs).thenSkip (fun _ rest' _ _ _ => Parser.reads_char ctx r rest') hsep ok
  refine ((Parser.reads_char ctx l s).skipThen hinner (fun _ _ => id) ?_).congr ?_
  · rintro _ _ ⟨⟨a, _⟩, ⟨w, _, _, ha, _⟩, rfl⟩
    exact ok w a ha
  · intro w a
    constructor
    · rintro ⟨⟨_, _⟩, ⟨_, _, rfl, rfl, ⟨_, _⟩, ⟨u, _, rfl, ha, rfl⟩, rfl⟩, rfl⟩
      exact ⟨u, rfl, ha⟩
    · rintro ⟨u, rfl, ha⟩
      exact ⟨((), a), ⟨[l], u ++ [r], rfl, rfl, (a, ()), ⟨u, [r], rfl, ha, rfl⟩, rfl⟩, rfl⟩

theorem sepBy1 {c : Char}
    (hp : ∀ u rest, s = u ++ rest → Reads L code More rest (p.answer ctx rest))
    (sep : ∀ rest, ¬ More (c :: rest)) (ok : ∀ w a, L w a → (code a).isFailure = false) :
    Reads (L.Listed c) (listCode code) (fun rest => More rest ∨ Starts (· == c) rest) s
      ((Parser.sepBy1 (.char c) p).answer ctx s) := by
  let K := ((Language.char c).seq L).map Prod.snd
  have hK : ∀ w a, K w a → Starts (· == c) w := by
    rintro _ _ ⟨⟨_, _⟩, ⟨_, _, rfl, rfl, _⟩, rfl⟩
    exact beq_self_eq_true c
  have hsep : ∀ rest, K.Begins rest → ¬ More rest := by
    rintro _ ⟨_, rest, _, rfl, ⟨_, _⟩, ⟨_, _, rfl, rfl, _⟩, rfl⟩
    exact sep _
  have hitem : ∀ u rest, s = u ++ rest →
      Reads K code More rest (((Parser.char c).skipThen p).answer ctx rest) := fun u rest hs =>
    (Parser.reads_char ctx c rest).skipThen
      (fun u' rest' _ hs' _ => hp (u ++ u') rest' (by simp [hs, hs'])) (fun _ _ => id) ok
  have hmany : ∀ u rest a, s = u ++ rest → L u a →
      Reads K.Star (listCode code) (fun rest => More rest ∨ Starts (· == c) rest) rest
        (((Parser.char c).skipThen p).many.answer ctx rest) := by
    intro u rest _ hs _
    refine (many (fun u' rest' hs' => hitem (u ++ u') rest' (by simp [hs, hs'])) ?_ hsep).mono ?_
    · intro w a hw hnil
      subst hnil
      exact hK [] a hw
    · exact fun rest h => h.imp_right (·.starts hK)
  have hpair := (hp [] s rfl).pair hmany (by
    intro v rest _ hv hm
    cases hv with
    | nil => exact ⟨rfl, .inl hm⟩
    | cons hu _ => exact absurd hm (hsep _ ⟨_, _, _, List.append_assoc .., hu⟩))
  rw [Parser.sepBy1, Parser.answer_map]
  apply (hpair.apply (g := fun x => x.1 :: x.2) (fun _ _ _ => rfl) (fun _ _ _ => rfl)).congr
  exact fun w as => listed_iff.symm

theorem sepBy {c : Char}
    (hp : ∀ u rest, s = u ++ rest → Reads L code More rest (p.answer ctx rest))
    (sep : ∀ rest, ¬ More (c :: rest)) (ok : ∀ w a, L w a → (code a).isFailure = false)
    (ne : ∀ w a, L w a → w ≠ []) :
    Reads ((L.Listed c).union (.empty [])) (listCode code)
      (fun rest => More rest ∨ Starts (· == c) rest ∨ L.Begins rest) s
      ((Parser.sepBy (.char c) p).answer ctx s) := by
  rw [Parser.answer_sepBy]
  refine ((sepBy1 hp sep ok).mono ?_).orElse (fun _ => .empty _) ?_
  · exact fun rest h => h.imp_right .inl
  · rintro u rest as _ rest' _ hs has rfl ⟨rfl, rfl⟩
    have hu : 0 < u.length := List.length_pos_iff.2 (has.ne_nil ne)
    subst hs
    refine ⟨?_, .inr (.inr (has.begins rest))⟩
    simpa using hu

end ParserKit.Reads

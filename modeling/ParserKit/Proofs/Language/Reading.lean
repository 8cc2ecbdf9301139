import ParserKit.Proofs.Language.Basic
import ParserKit.Proofs.Parser.Answer

/-! Reading a language: a parser reads a language at an input if it matches a longest word of the
language which begins the input, and fails if there is none.  Where a longer word was matched than a
given one, what follows the given one has to be a possible continuation; that a continuation never
looks like the next part is what makes a sequence of parsers read a sequence of languages. -/

namespace ParserKit

variable {α β : Type} {L : Language α} {M : Language β} {code : α → Value} {code' : β → Value}
  {More More' : Input → Prop} {s : Input} {r r' : Reply Value}

/-- The answer to an input reads the language `L`, whose meanings are coded as values.  `More` holds
of whatever follows a word within a longer one. -/
inductive Reads (L : Language α) (code : α → Value) (More : Input → Prop) (s : Input) :
    Reply Value → Prop
  | matched {w a rest} : s = w ++ rest → L w a →
      (∀ {w' rest' a'}, s = w' ++ rest' → L w' a' →
        (code a' = code a ∧ rest' = rest) ∨ (rest.length < rest'.length ∧ More rest')) →
      Reads L code More s (.matched (code a) rest)
  | failed {reason rest} : ¬ L.Begins s → Reads L code More s (.failed reason rest)

namespace Reads

theorem compare {v : Value} {rest w rest' : Input} {a : α}
    (h : Reads L code More s (.matched v rest)) (hs : s = w ++ rest') (ha : L w a) :
    (code a = v ∧ rest' = rest) ∨ (rest.length < rest'.length ∧ More rest') := by
  cases h with
  | matched _ _ hc => exact hc hs ha

theorem isFailure_eq {v : Value} {rest : Input} (h : Reads L code More s (.matched v rest))
    (ok : ∀ w a, L w a → (code a).isFailure = false) : v.isFailure = false := by
  cases h with
  | matched _ ha _ => exact ok _ _ ha

theorem not_begins {reason : String} {rest : Input}
    (h : Reads L code More s (.failed reason rest)) : ¬ L.Begins s := by
  cases h with
  | failed hn => exact hn

theorem exists_failed (h : Reads L code More s r) (hn : ¬ L.Begins s) :
    ∃ reason rest, r = .failed reason rest := by
  cases h with
  | matched hs ha _ => exact absurd ⟨_, _, _, hs, ha⟩ hn
  | failed => exact ⟨_, _, rfl⟩

theorem no_match {ctx : Context} {ps : List Parser} {name : String}
    (h : Reads L code More s (((Parser.first ps).named name).answer ctx s))
    (hn : ∀ v rest, ((Parser.first ps).named name).answer ctx s ≠ .matched v rest) :
    ((Parser.first ps).named name).answer ctx s = .failed "no match" s := by
  cases heq : ((Parser.first ps).named name).answer ctx s with
  | matched v rest => exact absurd heq (hn v rest)
  | raised _ => rw [heq] at h; cases h
  | failed reason rest =>
    rw [Parser.answer_named] at heq
    obtain ⟨rfl, rfl⟩ := Parser.first_failed _ heq
    rfl

theorem matched_iff (h : Reads L code More s r) {v : Value} {rest : Input} :
    r = .matched v rest ↔ ∃ w a, s = w ++ rest ∧ v = code a ∧ L.Longest s w a := by
  constructor
  · rintro rfl
    cases h with
    | @matched w a _ hs ha hc =>
      refine ⟨w, a, hs, rfl, ha, ⟨rest, hs.symm⟩, ?_⟩
      rintro w' a' ha' ⟨rest', hs'⟩
      have hlen := congrArg List.length (hs'.trans hs)
      rw [List.length_append, List.length_append] at hlen
      rcases hc hs'.symm ha' with ⟨_, rfl⟩ | ⟨hlt, _⟩ <;> omega
  · rintro ⟨w, a, hs, rfl, ha, _, hlong⟩
    cases h with
    | failed hn => exact absurd ⟨w, rest, a, hs, ha⟩ hn
    | @matched w' a' t hs' ha' hc =>
      rcases hc hs ha with ⟨hcode, rfl⟩ | ⟨hlt, _⟩
      · rw [hcode]
      · have hle := hlong w' a' ha' ⟨t, hs'.symm⟩
        have hlen := congrArg List.length (hs.symm.trans hs')
        rw [List.length_append, List.length_append] at hlen
        omega

theorem exists_word {v : Value} {rest : Input} (h : Reads L code More s (.matched v rest)) :
    ∃ w a, s = w ++ rest ∧ L w a ∧ v = code a ∧
      ∀ f : Char → Bool, (∀ c, f c = true → ∃ b, L (w ++ [c]) b) → ¬ Starts f rest := by
  cases h with
  | @matched w a _ hs ha hc =>
    refine ⟨w, a, hs, ha, rfl, fun f hext hd => ?_⟩
    cases rest with
    | nil => exact hd
    | cons c t =>
      obtain ⟨b, hb⟩ := hext c hd
      have hs' : s = (w ++ [c]) ++ t := by rw [hs, List.append_assoc, List.singleton_append]
      rcases hc hs' hb with ⟨_, ht⟩ | ⟨hlt, _⟩
      · exact absurd (congrArg List.length ht) (by simp)
      · exact absurd hlt (by simp)

theorem matched_iff_not_starts {f : Char → Bool} (h : Reads L code (Starts f) s r)
    (hext : ∀ w a c, L w a → f c = true → ∃ b, L (w ++ [c]) b) {v : Value} {rest : Input} :
    r = .matched v rest ↔ ∃ w a, s = w ++ rest ∧ L w a ∧ v = code a ∧ ¬ Starts f rest := by
  constructor
  · rintro rfl
    obtain ⟨w, a, hs, ha, hv, hnext⟩ := h.exists_word
    exact ⟨w, a, hs, ha, hv, hnext f fun c => hext w a c ha⟩
  · rintro ⟨w, a, hs, ha, rfl, hrest⟩
    cases h with
    | failed hn => exact absurd ⟨w, rest, a, hs, ha⟩ hn
    | matched _ _ hc =>
      rcases hc hs ha with ⟨hcode, rfl⟩ | ⟨_, hd⟩
      · rw [hcode]
      · exact absurd hd hrest

theorem unique {w : Input} {a a' : α} (h : Reads L code More w r) (ha : L w a) (ha' : L w a') :
    code a = code a' := by
  have hs : w = w ++ [] := (List.append_nil w).symm
  cases h with
  | failed hn => exact absurd ⟨w, [], a, hs, ha⟩ hn
  | matched _ _ hc =>
    have hcode : ∀ b, L w b → code b = code _ := fun b hb => by
      rcases hc hs hb with ⟨hcode, _⟩ | ⟨hlt, _⟩
      · exact hcode
      · exact absurd hlt (Nat.not_lt_zero _)
    rw [hcode a ha, hcode a' ha']

theorem mono_of_begins (h : Reads L code More s r)
    (hm : L.Begins s → ∀ rest, More rest → More' rest) : Reads L code More' s r := by
  cases h with
  | failed hn => exact .failed hn
  | matched hs ha hc =>
    refine .matched hs ha fun hs' ha' => ?_
    exact (hc hs' ha').imp_right fun ⟨hlt, hmore⟩ => ⟨hlt, hm ⟨_, _, _, hs, ha⟩ _ hmore⟩

theorem mono (h : Reads L code More s r) (hm : ∀ rest, More rest → More' rest) :
    Reads L code More' s r := h.mono_of_begins fun _ => hm

theorem congr_begins {L' : Language α} (h : Reads L code More s r)
    (hl : ∀ w rest a, s = w ++ rest → (L w a ↔ L' w a)) : Reads L' code More s r := by
  cases h with
  | failed hn =>
    apply Reads.failed
    rintro ⟨w, rest, a, hs, ha⟩
    exact hn ⟨w, rest, a, hs, (hl w rest a hs).2 ha⟩
  | matched hs ha hc =>
    exact .matched hs ((hl _ _ _ hs).1 ha) fun hs' ha' => hc hs' ((hl _ _ _ hs').2 ha')

theorem congr {L' : Language α} (h : Reads L code More s r) (hl : ∀ w a, L w a ↔ L' w a) :
    Reads L' code More s r := h.congr_begins fun w _ a _ => hl w a

theorem empty (a : α) : Reads (.empty a) code More s (.matched (code a) s) := by
  apply Reads.matched (List.nil_append s).symm ⟨rfl, rfl⟩
  rintro _ rest _ rfl ⟨rfl, rfl⟩
  exact .inl ⟨rfl, rfl⟩

theorem recode {g : α → β} (h : Reads L code More s r)
    (hg : ∀ w a, L w a → code' (g a) = code a) : Reads (L.map g) code' More s r := by
  cases h with
  | failed hn => exact .failed fun hb => hn hb.map
  | @matched w a rest hs ha hc =>
    rw [← hg w a ha]
    apply Reads.matched hs ⟨a, ha, rfl⟩
    rintro w' rest' _ hs' ⟨a', ha', rfl⟩
    rw [hg w a ha, hg w' a' ha']
    exact hc hs' ha'

theorem apply {f : Value → Except Fault Value} {g : α → β} (h : Reads L code More s r)
    (hf : ∀ w a, L w a → f (code a) = .ok (code' (g a)))
    (hg : ∀ w a, L w a → (code' (g a)).isFailure = false) :
    Reads (L.map g) code' More s (r.andThen s fun v rest => .ofOutcome (f v) rest) := by
  cases h with
  | failed hn => exact .failed fun hb => hn hb.map
  | @matched w a rest hs ha hc =>
    rw [Reply.andThen_matched, hf w a ha, Reply.ofOutcome_ok (hg w a ha)]
    apply Reads.matched hs ⟨a, ha, rfl⟩
    rintro w' rest' _ hs' ⟨a', ha', rfl⟩
    refine (hc hs' ha').imp_left fun ⟨hv, hrest⟩ => ⟨?_, hrest⟩
    have hok := congrArg f hv
    rw [hf w a ha, hf w' a' ha'] at hok
    exact Except.ok.inj hok

theorem andThen {M : α → Language β} {next : Value → Input → Reply Value}
    (h : Reads L code More s r)
    (hn : ∀ u rest a, s = u ++ rest → L u a → Reads (M a) code' More' rest (next (code a) rest))
    (sep : ∀ a v rest b, M a v b → More (v ++ rest) →
      v = [] ∧ More' rest ∧ ∀ a', ∃ b', M a' [] b') :
    Reads (L.bind M) code' More' s (r.andThen s next) := by
  cases h with
  | failed hn =>
    refine .failed fun hb => ?_
    obtain ⟨u, rest, a, hs, ha, _⟩ := hb.bind
    exact hn ⟨u, rest, a, hs, ha⟩
  | @matched u a rest hs ha hc =>
    rw [Reply.andThen_matched]
    have h' : ∀ a', code a' = code a → (∃ u', s = u' ++ rest ∧ L u' a') →
        Reads (M a') code' More' rest (next (code a) rest) := by
      rintro a' hcode ⟨u', hs', ha'⟩
      rw [← hcode]
      exact hn u' rest a' hs' ha'
    have h₀ := h' a rfl ⟨u, hs, ha⟩
    generalize next (code a) rest = r at h' h₀
    cases h₀ with
    | failed hnb =>
      apply Reads.failed
      rintro ⟨_, rest', b, hs', u', v', a', rfl, hu', hv'⟩
      rw [List.append_assoc] at hs'
      rcases hc hs' hu' with ⟨hcode, rfl⟩ | ⟨_, hm⟩
      · exact (h' a' hcode ⟨u', hs', hu'⟩).not_begins (.intro hv' rest')
      · obtain ⟨rfl, _, he⟩ := sep a' v' rest' b hv' hm
        obtain ⟨b', hb'⟩ := he a
        exact hnb (.intro hb' rest)
    | @matched v b t ht hb _ =>
      apply Reads.matched (w := u ++ v) (by simp [hs, ht]) ⟨u, v, a, rfl, ha, hb⟩
      rintro _ rest' b' hs' ⟨u', v', a', rfl, hu', hv'⟩
      rw [List.append_assoc] at hs'
      rcases hc hs' hu' with ⟨hcode, hrest⟩ | ⟨hlt, hm⟩
      · have h' := h' a' hcode ⟨u', hrest ▸ hs', hu'⟩
        exact h'.compare hrest.symm hv'
      · -- The first parser went past its word: the second word is empty and still begins the rest.
        obtain ⟨rfl, hm', _⟩ := sep a' v' rest' b' hv' hm
        have hle : t.length ≤ rest.length := by simp [ht]
        exact .inr ⟨Nat.lt_of_le_of_lt hle hlt, hm'⟩

theorem pair {ctx : Context} {p q : Parser} (hp : Reads L code More s (p.answer ctx s))
    (hq : ∀ u rest a, s = u ++ rest → L u a → Reads M code' More' rest (q.answer ctx rest))
    (sep : ∀ v rest b, M v b → More (v ++ rest) → v = [] ∧ More' rest) :
    Reads (L.seq M) (fun x => .tuple [code x.1, code' x.2]) More' s
      ((Parser.pair p q).answer ctx s) := by
  rw [Parser.answer_pair]
  refine (hp.andThen (M := fun a => M.map fun b => (a, b)) ?_ ?_).congr ?_
  · intro u rest a hs ha
    exact (hq u rest a hs ha).apply (f := fun b => .ok (.tuple [code a, b])) (fun _ _ _ => rfl)
      fun _ _ _ => rfl
  · rintro a v rest _ ⟨b, hb, rfl⟩ hm
    obtain ⟨rfl, hm'⟩ := sep v rest b hb hm
    exact ⟨rfl, hm', fun a' => ⟨(a', b), b, hb, rfl⟩⟩
  · rintro w ⟨a, b⟩
    constructor
    · rintro ⟨u, v, _, rfl, ha, _, hb, hab⟩
      cases hab
      exact ⟨u, v, rfl, ha, hb⟩
    · rintro ⟨u, v, rfl, ha, hb⟩
      exact ⟨u, v, a, rfl, ha, b, hb, rfl⟩

theorem pair_of_sep {ctx : Context} {p q : Parser} (hp : Reads L code More s (p.answer ctx s))
    (hq : ∀ u rest a, s = u ++ rest → L u a → Reads M code' More' rest (q.answer ctx rest))
    (sep : ∀ rest, M.Begins rest → ¬ More rest) :
    Reads (L.seq M) (fun x => .tuple [code x.1, code' x.2]) More' s
      ((Parser.pair p q).answer ctx s) :=
  hp.pair hq fun _ rest _ hv hm => absurd hm (sep _ (.intro hv rest))

theorem triple {γ : Type} {N : Language γ} {code'' : γ → Value} {More'' : Input → Prop}
    {ctx : Context} {p q t : Parser} (hp : Reads L code More s (p.answer ctx s))
    (hq : ∀ s, Reads M code' More' s (q.answer ctx s))
    (ht : ∀ s, Reads N code'' More'' s (t.answer ctx s))
    (sep : ∀ rest, M.Begins rest → ¬ More rest) (sep' : ∀ rest, N.Begins rest → ¬ More' rest) :
    Reads (L.seq (M.seq N)) (fun x => .tuple [code x.1, code' x.2.1, code'' x.2.2]) More'' s
      ((Parser.triple p q t).answer ctx s) := by
  rw [Parser.answer_triple]
  refine (hp.andThen (M := fun a => M.bind fun b => N.map fun c => (a, b, c)) ?_ ?_).congr ?_
  · intro _ rest a _ _
    refine (hq rest).andThen (M := fun b => N.map fun c => (a, b, c)) ?_ ?_
    · intro _ rest' b _ _
      exact (ht rest').apply (f := fun c => .ok (.tuple [code a, code' b, c])) (fun _ _ _ => rfl)
        fun _ _ _ => rfl
    · rintro b v rest' _ ⟨c, hc, _⟩ hm
      exact absurd hm (sep' _ (.intro hc rest'))
  · rintro a _ rest _ ⟨u, v, b, rfl, hb, _⟩ hm
    exact absurd hm (sep _ ⟨u, v ++ rest, b, List.append_assoc .., hb⟩)
  · rintro w ⟨a, b, c⟩
    constructor
    · rintro ⟨u, _, _, rfl, ha, v, t, _, rfl, hb, _, hc, habc⟩
      cases habc
      exact ⟨u, v ++ t, rfl, ha, v, t, rfl, hb, hc⟩
    · rintro ⟨u, _, rfl, ha, v, t, rfl, hb, hc⟩
      exact ⟨u, v ++ t, a, rfl, ha, v, t, b, rfl, hb, c, hc, rfl⟩

theorem orElse {L' : Language α} (h : Reads L code More s r)
    (h' : ¬ L.Begins s → Reads L' code More s r')
    (cover : ∀ u rest a w rest' b, s = u ++ rest → L u a → s = w ++ rest' → L' w b →
      rest.length < rest'.length ∧ More rest') :
    Reads (L.union L') code More s (r.orElse r') := by
  cases h with
  | @matched u a rest hs ha hc =>
    apply Reads.matched hs (.inl ha)
    intro w rest' b hs' hb
    cases hb with
    | inl hb => exact hc hs' hb
    | inr hb => exact .inr (cover u rest a w rest' b hs ha hs' hb)
  | failed hn =>
    rw [Reply.orElse_failed]
    cases h' hn with
    | failed hn' =>
      apply Reads.failed
      rintro ⟨w, rest, a, hs, ha | ha⟩
      · exact hn ⟨w, rest, a, hs, ha⟩
      · exact hn' ⟨w, rest, a, hs, ha⟩
    | matched hs ha hc =>
      apply Reads.matched hs (.inr ha)
      intro w rest' b hs' hb
      cases hb with
      | inl hb => exact absurd ⟨w, rest', b, hs', hb⟩ hn
      | inr hb => exact hc hs' hb

theorem orElse_of_disjoint {L' : Language α} (h : Reads L code More s r)
    (h' : Reads L' code More s r') (disjoint : L.Begins s → ¬ L'.Begins s) :
    Reads (L.union L') code More s (r.orElse r') :=
  h.orElse (fun _ => h') fun _ _ _ _ _ _ hu ha hw hb =>
    (disjoint ⟨_, _, _, hu, ha⟩ ⟨_, _, _, hw, hb⟩).elim

theorem orElse_of_subset (h : Reads L code More s r)
    (h' : ¬ L.Begins s → ∃ reason rest, r' = .failed reason rest) :
    Reads L code More s (r.orElse r') := by
  cases h with
  | matched hs ha hc => exact .matched hs ha hc
  | failed hn =>
    obtain ⟨reason, rest, rfl⟩ := h' hn
    exact .failed hn

theorem orElse_failed (h : Reads L code More s r) (reason : String) (rest : Input) :
    Reads L code More s (r.orElse (.failed reason rest)) :=
  h.orElse_of_subset fun _ => ⟨reason, rest, rfl⟩

end Reads

end ParserKit

import ParserKit.Parser.Event

namespace ParserKit

abbrev Language (α : Type) := Input → α → Prop

def Starts (f : Char → Bool) : Input → Prop
  | [] => False
  | c :: _ => f c = true

instance (f : Char → Bool) : DecidablePred (Starts f)
  | [] => .isFalse id
  | c :: _ => inferInstanceAs (Decidable (f c = true))

@[simp] theorem starts_nil (f : Char → Bool) : ¬ Starts f [] := id

@[simp] theorem starts_cons (f : Char → Bool) (c : Char) (s : Input) :
    Starts f (c :: s) ↔ f c = true := Iff.rfl

theorem Starts.mono {f g : Char → Bool} (h : ∀ c, f c = true → g c = true) {s : Input}
    (hs : Starts f s) : Starts g s := by
  cases s with
  | nil => exact hs
  | cons c s => exact h c hs

theorem Starts.append {f : Char → Bool} {s : Input} (h : Starts f s) (t : Input) :
    Starts f (s ++ t) := by
  cases s with
  | nil => exact h.elim
  | cons c s => exact h

theorem Starts.not_starts {f g : Char → Bool} (h : ∀ c, f c = true → g c = false) {s : Input}
    (hs : Starts f s) : ¬ Starts g s := by
  cases s with
  | nil => exact hs.elim
  | cons c s => exact Bool.not_eq_true _ ▸ h c hs

def Ends (f : Char → Bool) (s : Input) : Prop := Starts f s.reverse

theorem ends_singleton (f : Char → Bool) (c : Char) : Ends f [c] ↔ f c = true := Iff.rfl

theorem Ends.append {f : Char → Bool} {t : Input} (h : Ends f t) (s : Input) : Ends f (s ++ t) := by
  rw [Ends, List.reverse_append]
  exact Starts.append h s.reverse

namespace Language

variable {α β γ : Type}

def Begins (L : Language α) (s : Input) : Prop := ∃ w rest a, s = w ++ rest ∧ L w a

/-- A word which begins the input and is not shorter than any other which does. -/
structure Longest (L : Language α) (s w : Input) (a : α) : Prop where
  mem : L w a
  begins : w <+: s
  longest : ∀ w' a', L w' a' → w' <+: s → w'.length ≤ w.length

def bind (L : Language α) (M : α → Language β) : Language β :=
  fun w b => ∃ u v a, w = u ++ v ∧ L u a ∧ M a v b

def seq (L : Language α) (M : Language β) : Language (α × β) :=
  fun w x => ∃ u v, w = u ++ v ∧ L u x.1 ∧ M v x.2

inductive Star (L : Language α) : Language (List α)
  | nil : Star L [] []
  | cons {u v a as} : L u a → Star L v as → Star L (u ++ v) (a :: as)

inductive Listed (L : Language α) (c : Char) : Language (List α)
  | last {w a} : L w a → Listed L c w [a]
  | cons {u v a as} : L u a → Listed L c v as → Listed L c (u ++ c :: v) (a :: as)

def map (L : Language α) (g : α → β) : Language β := fun w b => ∃ a, L w a ∧ g a = b

def char (c : Char) : Language Unit := fun w _ => w = [c]

def word (t : String) : Language Unit := fun w _ => w = t.toList

def between (L : Language α) (l r : Char) : Language α :=
  fun w a => ∃ u, w = l :: (u ++ [r]) ∧ L u a

def union (L M : Language α) : Language α := fun w a => L w a ∨ M w a

def empty (a : α) : Language α := fun w b => w = [] ∧ b = a

def span (f : Char → Bool) : Language Input := fun w a => a = w ∧ ∀ c ∈ w, f c = true

def run (f : Char → Bool) : Language Input := fun w a => w ≠ [] ∧ span f w a

theorem Begins.intro {L : Language α} {w : Input} {a : α} (h : L w a) (rest : Input) :
    L.Begins (w ++ rest) := ⟨w, rest, a, rfl, h⟩

theorem Begins.map {L : Language α} {g : α → β} {s : Input} (h : (L.map g).Begins s) :
    L.Begins s := by
  obtain ⟨w, rest, _, hs, a, ha, _⟩ := h
  exact ⟨w, rest, a, hs, ha⟩

theorem Begins.bind {L : Language α} {M : α → Language β} {s : Input} (h : (L.bind M).Begins s) :
    ∃ u rest a, s = u ++ rest ∧ L u a ∧ (M a).Begins rest := by
  obtain ⟨w, rest, b, rfl, u, v, a, rfl, hu, hv⟩ := h
  exact ⟨u, v ++ rest, a, List.append_assoc .., hu, .intro hv rest⟩

theorem Begins.seq {L : Language α} {M : Language β} {s : Input} (h : (L.seq M).Begins s) :
    ∃ u rest a, s = u ++ rest ∧ L u a ∧ M.Begins rest := by
  obtain ⟨w, rest, ⟨a, b⟩, rfl, u, v, rfl, hu, hv⟩ := h
  exact ⟨u, v ++ rest, a, List.append_assoc .., hu, .intro hv rest⟩

theorem Begins.starts {L : Language α} {f : Char → Bool} (h : ∀ w a, L w a → Starts f w)
    {s : Input} (hs : L.Begins s) : Starts f s := by
  obtain ⟨w, rest, a, rfl, hw⟩ := hs
  exact (h w a hw).append rest

theorem union_starts {L M : Language α} {f g : Char → Bool} (hL : ∀ w a, L w a → Starts f w)
    (hM : ∀ w a, M w a → Starts g w) (w : Input) (a : α) (h : L.union M w a) :
    Starts (fun c => f c || g c) w := by
  cases h with
  | inl h => exact (hL w a h).mono fun c hc => by rw [hc, Bool.true_or]
  | inr h => exact (hM w a h).mono fun c hc => by rw [hc, Bool.or_true]

theorem map_starts {L : Language α} {f : Char → Bool} (h : ∀ w a, L w a → Starts f w) (g : α → β)
    (w : Input) (b : β) (hw : L.map g w b) : Starts f w := by
  obtain ⟨a, ha, _⟩ := hw
  exact h w a ha

theorem between_starts (L : Language α) (l r : Char) (w : Input) (a : α) (h : L.between l r w a) :
    Starts (· == l) w := by
  obtain ⟨_, rfl, _⟩ := h
  exact beq_self_eq_true l

theorem disjoint_of_starts {L : Language α} {M : Language β} {f g : Char → Bool}
    (hL : ∀ w a, L w a → Starts f w) (hM : ∀ w b, M w b → Starts g w)
    (hfg : ∀ c, f c = true → g c = false) {s : Input} (h : L.Begins s) : ¬ M.Begins s := by
  exact fun h' => (h.starts hL).not_starts hfg (h'.starts hM)

theorem Star.append_singleton {L : Language α} {u v : Input} {as : List α} {a : α}
    (h : Star L u as) (hv : L v a) : Star L (u ++ v) (as ++ [a]) := by
  induction h with
  | nil => simpa using Star.cons hv .nil
  | cons hu _ ih => simpa using Star.cons hu ih

theorem Listed.append_star {c : Char} {L : Language α} {u v : Input} {a : α} {as : List α}
    (hu : L u a) (hv : Star (((char c).seq L).map Prod.snd) v as) :
    Listed L c (u ++ v) (a :: as) := by
  induction hv generalizing u a with
  | nil => simpa using Listed.last hu
  | cons hw _ ih =>
    obtain ⟨⟨_, b⟩, ⟨_, w, rfl, rfl, hw⟩, rfl⟩ := hw
    exact .cons hu (ih hw)

theorem listed_iff {c : Char} {L : Language α} {w : Input} {as : List α} :
    Listed L c w as ↔
      ((L.seq (Star (((char c).seq L).map Prod.snd))).map fun x => x.1 :: x.2) w as := by
  constructor
  · intro h
    induction h with
    | last hw => exact ⟨(_, []), ⟨_, [], (List.append_nil _).symm, hw, .nil⟩, rfl⟩
    | @cons u v a as hu _ ih =>
      obtain ⟨⟨b, bs⟩, ⟨v₁, v₂, rfl, hb, hbs⟩, rfl⟩ := ih
      refine ⟨(a, b :: bs), ⟨u, c :: v₁ ++ v₂, rfl, hu, .cons ?_ hbs⟩, rfl⟩
      exact ⟨((), b), ⟨[c], v₁, rfl, rfl, hb⟩, rfl⟩
  · rintro ⟨⟨a, as⟩, ⟨u, v, rfl, hu, hv⟩, rfl⟩
    exact .append_star hu hv

theorem Listed.begins {c : Char} {L : Language α} {w : Input} {as : List α} (h : Listed L c w as)
    (rest : Input) : L.Begins (w ++ rest) := by
  cases h with
  | last hw => exact .intro hw rest
  | cons hu _ => exact ⟨_, _, _, List.append_assoc .., hu⟩

theorem Listed.ne_nil {c : Char} {L : Language α} (h : ∀ w a, L w a → w ≠ []) {w : Input}
    {as : List α} (hw : Listed L c w as) : w ≠ [] := by
  cases hw with
  | last hw => exact h _ _ hw
  | cons _ _ => simp

theorem run_append {f : Char → Bool} {w : Input} {c : Char} (h : run f w w) (hc : f c = true) :
    run f (w ++ [c]) (w ++ [c]) := by
  obtain ⟨_, _, hw⟩ := h
  refine ⟨by simp, rfl, fun d hd => ?_⟩
  cases List.mem_append.1 hd with
  | inl hd => exact hw d hd
  | inr hd => exact List.mem_singleton.1 hd ▸ hc

theorem run_starts {f : Char → Bool} (w a : Input) (h : run f w a) : Starts f w := by
  obtain ⟨hne, rfl, hall⟩ := h
  cases a with
  | nil => exact absurd rfl hne
  | cons c a => exact hall c List.mem_cons_self

end Language

end ParserKit

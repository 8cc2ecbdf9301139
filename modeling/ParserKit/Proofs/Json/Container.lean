import ParserKit.Proofs.Json.Blank
import ParserKit.Proofs.Json.Entries
import ParserKit.Proofs.Json.Scalar
import ParserKit.Proofs.Parser.Nesting

namespace ParserKit.Json

open Text ParserKit.Language

def itemGoesOn (c : Char) : Bool := c != ',' && c != ']' && c != '\x7d'

def bodyGoesOn (c : Char) : Bool := c != ']' && c != '\x7d'

def opensItem (c : Char) : Bool := !isBlank c && bodyGoesOn c

theorem itemGoesOn_of {f : Char → Bool} (comma : f ',' = false) (bracket : f ']' = false)
    (brace : f '\x7d' = false) {c : Char} (h : f c = true) : itemGoesOn c = true := by
  have hne : ∀ d, f d = false → c ≠ d := by
    rintro d hd rfl
    exact Bool.noConfusion (h.symm.trans hd)
  rw [itemGoesOn, Bool.and_eq_true, Bool.and_eq_true, bne_iff_ne, bne_iff_ne, bne_iff_ne]
  exact ⟨⟨hne _ comma, hne _ bracket⟩, hne _ brace⟩

theorem itemGoesOn_of_isAsciiDigit {c : Char} : isAsciiDigit c = true → itemGoesOn c = true :=
  itemGoesOn_of rfl rfl rfl

theorem itemGoesOn_of_isBlank {c : Char} : isBlank c = true → itemGoesOn c = true :=
  itemGoesOn_of rfl rfl rfl

theorem bodyGoesOn_of_itemGoesOn {c : Char} (h : itemGoesOn c = true) : bodyGoesOn c = true := by
  rw [itemGoesOn, Bool.and_assoc, Bool.and_eq_true] at h
  exact h.2

theorem bodyGoesOn_of_isBlank {c : Char} (h : isBlank c = true) : bodyGoesOn c = true :=
  bodyGoesOn_of_itemGoesOn (itemGoesOn_of_isBlank h)

theorem not_isBlank_of_isAsciiDigit {c : Char} (h : isAsciiDigit c = true) : isBlank c = false := by
  have := toNat_of_isAsciiDigit h
  simp [isBlank]
  omega

theorem starts_opensItem {w : Input} (h : Starts opensItem w) : w ≠ [] ∧ ¬ Starts isBlank w := by
  cases w with
  | nil => exact h.elim
  | cons c w =>
    refine ⟨List.cons_ne_nil c w, fun hb => ?_⟩
    have hb : isBlank c = true := hb
    simp [opensItem, hb] at h

variable {α : Type} {M : Language α} {code : α → Value} {s : Input} {p : Parser} {ctx : Context}

def Body (M : Language α) : Language (List α) :=
  (M.Listed ',').union ((Language.span isBlank).map fun _ => [])

def Indented (w : Input) : Prop := ∃ u v, w = u ++ v ∧ Blank u ∧ Starts opensItem v

theorem Indented.append {w : Input} (h : Indented w) (t : Input) : Indented (w ++ t) := by
  obtain ⟨u, v, rfl, hu, hv⟩ := h
  refine ⟨u, v ++ t, List.append_assoc .., hu, ?_⟩
  cases v with
  | nil => exact hv.elim
  | cons c v => exact hv

theorem Indented.dropWhile {w : Input} (h : Indented w) (rest : Input) :
    Starts opensItem ((w ++ rest).dropWhile isBlank) ∧
      rest.length < ((w ++ rest).dropWhile isBlank).length := by
  obtain ⟨u, v, rfl, hu, hv⟩ := h
  cases v with
  | nil => exact hv.elim
  | cons c v =>
    have hc : ¬ Starts isBlank (c :: v ++ rest) := (starts_opensItem hv).2
    rw [List.append_assoc, dropWhile_append hu hc]
    refine ⟨hv, ?_⟩
    simp only [List.cons_append, List.length_cons, List.length_append]
    omega

theorem listed_append_blank (hM : ∀ w v a, M w a → Blank v → M (w ++ v) a) (w v : Input)
    (as : List α) (h : M.Listed ',' w as) (hv : Blank v) : M.Listed ',' (w ++ v) as := by
  induction h with
  | last hw => exact .last (hM _ _ _ hw hv)
  | cons hu _ ih =>
    rw [List.append_assoc]
    exact .cons hu ih

theorem listed_indented (hM : ∀ w a, M w a → Indented w) {w : Input} {as : List α}
    (h : M.Listed ',' w as) : Indented w := by
  cases h with
  | last hw => exact hM _ _ hw
  | cons hu _ => exact (hM _ _ hu).append _

theorem reads_body (hp : ∀ u rest, s = u ++ rest →
      Reads M code (Starts itemGoesOn) rest (p.answer ctx rest))
    (join : ∀ w v a, M w a → Blank v → M (w ++ v) a) (start : ∀ w a, M w a → Indented w)
    (ok : ∀ w a, M w a → (code a).isFailure = false) :
    Reads (Body M) (Reads.listCode code) (Starts bodyGoesOn) s
      (((Parser.sepBy (.char ',') p).thenSkip Parser.blanks).answer ctx s) := by
  have hmore : ∀ rest, Starts itemGoesOn rest ∨ Starts (· == ',') rest →
      Starts bodyGoesOn rest := by
    intro rest h
    cases h with
    | inl h => exact h.mono fun _ => bodyGoesOn_of_itemGoesOn
    | inr h => exact h.mono fun c hc => by rw [eq_of_beq hc]; rfl
  have hlisted := (Reads.sepBy1 hp (fun _ => Bool.noConfusion) ok).mono hmore
  have hitems := reads_thenBlanks ctx hlisted (listed_append_blank join) fun _ _ _ => rfl
  have hspan : Reads (.span isBlank) (fun _ => .list []) (Starts isBlank) s
      (.matched (.list []) (s.dropWhile isBlank)) := Parser.reads_span rfl
  have hblanks : Reads ((Language.span isBlank).map fun _ => ([] : List α)) (Reads.listCode code)
      (Starts bodyGoesOn) s (.matched (.list []) (s.dropWhile isBlank)) :=
    (hspan.mono fun _ h => h.mono fun _ => bodyGoesOn_of_isBlank).recode fun _ _ _ => rfl
  have hanswer : ((Parser.sepBy (.char ',') p).thenSkip Parser.blanks).answer ctx s =
      (((Parser.sepBy1 (.char ',') p).thenSkip Parser.blanks).answer ctx s).orElse
        (.matched (.list []) (s.dropWhile isBlank)) := by
    rw [answer_thenBlanks, answer_thenBlanks, Parser.answer_sepBy]
    cases hr : (Parser.sepBy1 (.char ',') p).answer ctx s with
    | matched v rest =>
      rw [hr] at hlisted
      have hv := hlisted.isFailure_eq fun _ _ _ => rfl
      rw [Reply.orElse_matched, Reply.andThen_matched, Reply.ofOutcome_ok hv, Reply.orElse_matched]
    | failed _ _ => rfl
    | raised _ => rfl
  rw [hanswer]
  apply hitems.orElse (fun _ => hblanks)
  rintro u rest as w rest' _ hs hu hs' ⟨_, ⟨rfl, hw⟩, _⟩
  obtain ⟨hstarts, hlen⟩ := (listed_indented start hu).dropWhile rest
  rw [← hs] at hstarts hlen
  rcases span_longest hs' hw with ⟨_, rfl⟩ | ⟨hlt, hb⟩
  · exact ⟨hlen, hstarts.mono fun c hc => (Bool.and_eq_true_iff.1 hc).2⟩
  · exact ⟨Nat.lt_trans hlen hlt, hb.mono fun _ => bodyGoesOn_of_isBlank⟩

abbrev Inside (J : Language Value) (ctx : Context) (s : Input) : Prop :=
  Within (fun s => Reads J id (Starts isAsciiDigit) s) .json ctx s

structure Contents (J : Language Value) : Prop where
  starts : ∀ w v, J w v → Starts opensItem w
  isFailure_eq : ∀ w v, J w v → v.isFailure = false

variable {J : Language Value}

theorem Spaced.indented {L : Language α} (hL : ∀ w a, L w a → Starts opensItem w) (w : Input)
    (a : α) (h : Spaced L w a) : Indented w := by
  obtain @⟨u, w, v, _, hu, hw, _⟩ := h
  exact ⟨u, w ++ v, rfl, hu, Begins.starts hL (.intro hw v)⟩

theorem reads_spacedNested (hJ : Contents J)
    (h : ∀ u rest, s = u ++ rest → Reads J id (Starts isAsciiDigit) rest (nested.answer ctx rest)) :
    Reads (Spaced J) id (Starts itemGoesOn) s ((spaced nested).answer ctx s) := by
  refine (reads_spaced ctx h (fun w v hw => starts_opensItem (hJ.starts w v hw)) ?_
    hJ.isFailure_eq).mono ?_
  · intro rest hd hb
    cases rest with
    | nil => exact hd
    | cons c rest =>
      rw [starts_cons, not_isBlank_of_isAsciiDigit hd] at hb
      exact Bool.noConfusion hb
  · intro rest h
    cases h with
    | inl hb => exact hb.mono fun _ => itemGoesOn_of_isBlank
    | inr hd => exact hd.mono fun _ => itemGoesOn_of_isAsciiDigit

theorem Contents.isFailure_eq_of_spaced (hJ : Contents J) (w : Input) (v : Value)
    (h : Spaced J w v) : v.isFailure = false := by
  obtain @⟨_, w, _, _, _, hw, _⟩ := h
  exact hJ.isFailure_eq w v hw

theorem Inside.nested {c : Char} (h : Inside J ctx s) (hc : Rule.json.opens c = true) {rest : Input}
    (hs : s = c :: rest) (u rest' : Input) (hr : rest = u ++ rest') :
    Reads J id (Starts isAsciiDigit) rest' (nested.answer ctx rest') := by
  rw [Json.nested, Parser.answer_rule]
  exact h (c :: u) rest' (hs.trans (congrArg _ hr)) ⟨c, List.mem_cons_self, hc⟩

theorem reads_array (hJ : Contents J) (h : Inside J ctx s) :
    Reads ((Body (Spaced J)).between '[' ']') (Reads.listCode id) (fun _ => False) s
      (array.answer ctx s) := by
  have hlist : ∀ rest, s = '[' :: rest →
      Reads (Body (Spaced J)) (Reads.listCode id) (Starts bodyGoesOn) rest
        (((Parser.sepBy (.char ',') (spaced nested)).thenSkip Parser.blanks).answer ctx rest) := by
    intro rest hs
    refine reads_body (fun u rest' hr => reads_spacedNested hJ fun u' rest'' hr' => ?_)
      (fun _ _ _ => .append_blank) (Spaced.indented hJ.starts) hJ.isFailure_eq_of_spaced
    apply h.nested rfl hs (u ++ u') rest''
    rw [hr, hr', List.append_assoc]
  rw [array, Parser.answer_named]
  exact Reads.between hlist (fun _ => Bool.noConfusion) fun _ _ _ => rfl

def memberCode (member : String × Value) : Value := .tuple [.text member.1, member.2]

theorem Quoted.starts (w : Input) (t : String) (h : Quoted w t) : Starts (· == '\x22') w := by
  cases h
  rfl

theorem Quoted.opens (w : Input) (t : String) (h : Quoted w t) : Starts opensItem w :=
  (h.starts).mono fun c hc => by rw [eq_of_beq hc]; rfl

theorem reads_key :
    Reads (((Spaced Quoted).seq (.char ':')).map Prod.fst) .text (fun _ => False) s
      (((spaced string).thenSkip (.char ':')).answer ctx s) := by
  have hstring := reads_spaced ctx (s := s) (fun _ rest _ => reads_string ctx rest)
    (fun w t hw => starts_opensItem (Quoted.opens w t hw)) (fun _ => False.elim) fun _ _ _ => rfl
  refine hstring.thenSkip (fun _ rest _ _ _ => Parser.reads_char ctx ':' rest) ?_ fun _ _ _ => rfl
  intro _ rest _ rfl h
  cases h with
  | inl hb => exact Bool.noConfusion hb
  | inr hm => exact hm.elim

theorem reads_member (hJ : Contents J)
    (h : ∀ u rest, s = u ++ rest → Reads J id (Starts isAsciiDigit) rest (nested.answer ctx rest)) :
    Reads (Member J) memberCode (Starts itemGoesOn) s (member.answer ctx s) := by
  rw [member]
  refine (reads_key.pair_of_sep (fun u rest _ hs _ => reads_spacedNested hJ fun u' rest' hr =>
    h (u ++ u') rest' ?_) fun _ _ => id).congr ?_
  · rw [hs, hr, List.append_assoc]
  · rintro w ⟨key, v⟩
    constructor
    · rintro ⟨_, x, rfl, ⟨⟨_, _⟩, ⟨u, _, rfl, hu, rfl⟩, rfl⟩, hx⟩
      rw [List.append_assoc]
      exact .mk hu hx
    · rintro @⟨u, x, _, _, hu, hx⟩
      exact ⟨u ++ [':'], x, by simp, ⟨(key, ()), ⟨u, [':'], rfl, hu, rfl⟩, rfl⟩, hx⟩

theorem Member.append_blank {L : Language Value} {w v : Input} {m : String × Value}
    (h : Member L w m) (hv : Blank v) : Member L (w ++ v) m := by
  obtain ⟨hu, hx⟩ := h
  rw [List.append_assoc]
  exact .mk hu (hx.append_blank hv)

theorem Member.blank_append {L : Language Value} {u w : Input} {m : String × Value} (hu : Blank u)
    (h : Member L w m) : Member L (u ++ w) m := by
  obtain ⟨hk, hx⟩ := h
  rw [← List.append_assoc]
  exact .mk (hk.blank_append hu) hx

theorem Member.split {L : Language Value} (w : Input) (m : String × Value) (h : Member L w m) :
    ∃ u v, w = u ++ v ∧ Blank u ∧ Member L v m ∧ Starts opensItem v := by
  obtain @⟨_, x, _, _, @⟨u, q, v, _, hu, hq, hv⟩, hx⟩ := h
  refine ⟨u, q ++ v ++ ':' :: x, List.append_assoc .., hu, .mk (.mk blank_nil hq hv) hx, ?_⟩
  rw [List.append_assoc]
  exact Begins.starts Quoted.opens (.intro hq _)

theorem reads_spacedMember (hJ : Contents J)
    (h : ∀ u rest, s = u ++ rest → Reads J id (Starts isAsciiDigit) rest (nested.answer ctx rest)) :
    Reads (Member J) memberCode (Starts itemGoesOn) s ((spaced member).answer ctx s) := by
  have hs : s = s.takeWhile isBlank ++ s.dropWhile isBlank :=
    List.takeWhile_append_dropWhile.symm
  have hmember := reads_member hJ fun u rest hr => h (s.takeWhile isBlank ++ u) rest (by
    rw [List.append_assoc, ← hr]
    exact hs)
  refine reads_blanksThen ctx (reads_thenBlanks ctx hmember (fun _ _ _ => .append_blank)
    fun _ _ _ => rfl) ?_ (fun _ _ _ => .blank_append) fun _ _ _ => rfl
  intro w m hw
  obtain ⟨u, v, hw, hu, hv, hstarts⟩ := Member.split w m hw
  exact ⟨u, v, hw, hu, hv, starts_opensItem hstarts⟩

theorem filterMap_memberCode (members : List (String × Value)) :
    (members.map memberCode).filterMap entry? = members := by
  rw [List.filterMap_map]
  exact List.filterMap_some

theorem reads_object (hJ : Contents J) (h : Inside J ctx s) :
    Reads (((Body (Member J)).map Value.ofEntries).between '\x7b' '\x7d') id (fun _ => False) s
      (object.answer ctx s) := by
  have hlist : ∀ rest, s = '\x7b' :: rest →
      Reads ((Body (Member J)).map Value.ofEntries) id (Starts bodyGoesOn) rest
        ((((Parser.sepBy (.char ',') (spaced member)).thenSkip Parser.blanks).map toDict).answer
          ctx rest) := by
    intro rest hs
    have hitem : ∀ u rest', rest = u ++ rest' → Reads (Member J) memberCode (Starts itemGoesOn)
        rest' ((spaced member).answer ctx rest') := fun u rest' hr =>
      reads_spacedMember hJ fun u' rest'' hr' =>
        h.nested rfl hs (u ++ u') rest'' (by rw [hr, hr', List.append_assoc])
    have hstart : ∀ w m, Member J w m → Indented w := by
      intro w m hw
      obtain ⟨u, v, hw, hu, _, hv⟩ := Member.split w m hw
      exact ⟨u, v, hw, hu, hv⟩
    have hbody := reads_body hitem (fun _ _ _ => .append_blank) hstart fun _ _ _ => rfl
    rw [Parser.answer_map]
    refine hbody.apply (fun w members _ => ?_) fun _ _ _ => rfl
    show Except.ok (Value.ofEntries ((members.map memberCode).filterMap entry?)) = _
    rw [filterMap_memberCode]
    rfl
  rw [object, Parser.answer_named]
  exact Reads.between hlist (fun _ => Bool.noConfusion) fun w v ⟨_, _, hv⟩ => hv ▸ rfl

end ParserKit.Json

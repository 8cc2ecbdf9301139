import ParserKit.Parser.Event

namespace ParserKit

universe u v

/-- An answer.  The rest of a failed parse may be anything. -/
inductive Reply (α : Type u)
  | matched (value : α) (rest : Input)
  | failed (reason : String) (rest : Input)
  | raised (fault : Fault)

namespace Reply

/-- A parser fails when its value is a failure, and on no other ground. -/
def ofOutcome : Except Fault Value → Input → Reply Value
  | .ok (.failure reason), rest => .failed reason rest
  | .ok value, rest => .matched value rest
  | .error fault, _ => .raised fault

variable {α : Type u} {β : Type v}

def map (f : α → β) : Reply α → Reply β
  | matched value rest => .matched (f value) rest
  | failed reason rest => .failed reason rest
  | raised fault => .raised fault

/-- Goes on with the value and the rest of a match.  A failure is passed on with the input where
the whole began. -/
def andThen (r : Reply α) (start : Input) (next : α → Input → Reply β) : Reply β :=
  match r with
  | matched value rest => next value rest
  | failed reason _ => .failed reason start
  | raised fault => .raised fault

def orElse : Reply α → Reply α → Reply α
  | failed _ _, other => other
  | r, _ => r

@[simp] theorem map_id (r : Reply α) : r.map id = r := by cases r <;> rfl

@[simp] theorem map_map {γ : Type} (f : α → β) (g : β → γ) (r : Reply α) :
    (r.map f).map g = r.map (g ∘ f) := by cases r <;> rfl

theorem orElse_assoc (r q t : Reply α) : (r.orElse q).orElse t = r.orElse (q.orElse t) := by
  cases r <;> rfl

end Reply

structure Run (α : Type u) where
  events : List Event
  reply : Reply α

namespace Run

variable {α : Type u} {β : Type v}

def silent (reply : Reply α) : Run α := ⟨[], reply⟩

def emit (events : List Event) (r : Run α) : Run α := ⟨events ++ r.events, r.reply⟩

def map (f : α → β) (r : Run α) : Run β := ⟨r.events, r.reply.map f⟩

def andThen (r : Run α) (start : Input) (next : α → Input → Run β) : Run β :=
  match r.reply with
  | .matched value rest => (next value rest).emit r.events
  | .failed reason _ => ⟨r.events, .failed reason start⟩
  | .raised fault => ⟨r.events, .raised fault⟩

@[simp] theorem events_emit (es : List Event) (r : Run α) : (r.emit es).events = es ++ r.events := rfl

@[simp] theorem reply_emit (es : List Event) (r : Run α) : (r.emit es).reply = r.reply := rfl

@[simp] theorem emit_nil (r : Run α) : r.emit [] = r := rfl

@[simp] theorem emit_emit (es fs : List Event) (r : Run α) :
    (r.emit fs).emit es = r.emit (es ++ fs) := by
  simp [emit]

@[simp] theorem reply_map (f : α → β) (r : Run α) : (r.map f).reply = r.reply.map f := rfl

@[simp] theorem reply_silent (r : Reply α) : (silent r).reply = r := rfl

@[simp] theorem reply_andThen (r : Run α) (start : Input) (next : α → Input → Run β) :
    (r.andThen start next).reply = r.reply.andThen start fun a rest => (next a rest).reply := by
  obtain ⟨events, _ | _ | _⟩ := r <;> rfl

end Run

abbrev Step (α : Type u) := Input → Run α

namespace Step

variable {α : Type u} {β : Type v}

def matched (value : α) : Step α := fun s => .silent (.matched value s)

def failed (reason : String) : Step α := fun s => .silent (.failed reason s)

def raised (fault : Fault) : Step α := fun _ => .silent (.raised fault)

def leaf (f : Input → Except Fault (Value × Input)) : Step Value := fun s =>
  match f s with
  | .ok (value, rest) => .silent (.ofOutcome (.ok value) rest)
  | .error fault => .silent (.raised fault)

def map (f : α → β) (p : Step α) : Step β := fun s => (p s).map f

def bind (p : Step α) (next : α → Step β) : Step β := fun s => (p s).andThen s next

def apply (p : Step Value) (f : Value → Except Fault Value) : Step Value :=
  p.bind fun value rest => .silent (.ofOutcome (f value) rest)

def orElse (p q : Step α) : Step α := fun s =>
  let r := p s
  match r.reply with
  | .failed _ _ => (q s).emit r.events
  | _ => r

def first : List (Step α) → Step α
  | [] => failed "no match"
  | p :: ps => p.orElse (first ps)

def each : List (Step α) → Step (List α)
  | [] => matched []
  | p :: ps => fun s => (p s).andThen s fun value rest =>
    (each ps rest).andThen s fun values rest => .silent (.matched (value :: values) rest)

def round (name : String) (p : Step α) (next : Step (List α)) : Step (List α) := fun s =>
  let r := p s
  match r.reply with
  | .matched value rest =>
    if rest.length < s.length then ((next rest).map (value :: ·)).emit r.events
    else ⟨r.events, .raised (.emptyRepeat name)⟩
  | .failed _ _ => ⟨r.events, .matched [] s⟩
  | .raised fault => ⟨r.events, .raised fault⟩

def rounds (name : String) (p : Step α) : Nat → Step (List α)
  | 0 => round name p (raised (.emptyRepeat name))
  | n + 1 => round name p (rounds name p n)

/-- As many matches as there are.  Each shortens the input, so its length bounds the rounds after
the first. -/
def many (name : String) (p : Step α) : Step (List α) := fun s => rounds name p s.length s

def absent (name : String) (p : Step Value) : Step Value := fun s =>
  let r := p s
  match r.reply with
  | .matched _ _ => ⟨r.events, .failed ("unexpected " ++ name) s⟩
  | .failed _ _ => ⟨r.events, .matched .nothing s⟩
  | .raised fault => ⟨r.events, .raised fault⟩

/-- One step of a script: the script receives the value of a match and is left on a failure, with
the input where it started.  A fault of the step leaves the script where it is. -/
def await (routine : Routine) (start : Input) (p : Step Value) (next : Value → Step Value) :
    Step Value := fun s =>
  let r := p s
  match r.reply with
  | .matched value rest => (next value rest).emit (r.events ++ [.received routine value])
  | .failed reason _ => ⟨r.events ++ [.left routine], .failed reason start⟩
  | .raised fault => ⟨r.events, .raised fault⟩

def closing (name : String) : Reply Value → List Event
  | .matched value rest => [.matched name value rest]
  | .failed reason _ => [.failed name reason]
  | .raised _ => []

def logged (debug : Bool) (name : String) (p : Step Value) : Step Value := fun s =>
  let r := p s
  if debug then ⟨.tried name s :: (r.events ++ closing name r.reply), r.reply⟩ else r

@[simp] theorem reply_map (f : α → β) (p : Step α) (s : Input) :
    (p.map f s).reply = (p s).reply.map f := rfl

@[simp] theorem reply_bind (p : Step α) (next : α → Step β) (s : Input) :
    (p.bind next s).reply = (p s).reply.andThen s fun a rest => (next a rest).reply := by
  simp [bind]

@[simp] theorem reply_apply (p : Step Value) (f : Value → Except Fault Value) (s : Input) :
    (p.apply f s).reply = (p s).reply.andThen s fun v rest => .ofOutcome (f v) rest := by
  simp [apply]

@[simp] theorem reply_orElse (p q : Step α) (s : Input) :
    (p.orElse q s).reply = (p s).reply.orElse (q s).reply := by
  simp only [orElse]
  cases h : (p s).reply <;> simp [h, Reply.orElse]

@[simp] theorem reply_first_nil (s : Input) :
    (first ([] : List (Step α)) s).reply = .failed "no match" s := rfl

@[simp] theorem reply_first_cons (p : Step α) (ps : List (Step α)) (s : Input) :
    (first (p :: ps) s).reply = (p s).reply.orElse (first ps s).reply := by
  simp [first]

@[simp] theorem reply_each_nil (s : Input) :
    (each ([] : List (Step α)) s).reply = .matched [] s := rfl

@[simp] theorem reply_each_cons (p : Step α) (ps : List (Step α)) (s : Input) :
    (each (p :: ps) s).reply = (p s).reply.andThen s fun a rest =>
      (each ps rest).reply.andThen s fun as rest => .matched (a :: as) rest := by
  simp [each]

theorem round_congr {name : String} {p : Step α} {q t : Step (List α)} {s : Input}
    (h : ∀ rest, rest.length < s.length → q rest = t rest) :
    round name p q s = round name p t s := by
  simp only [round]
  split
  · next rest _ =>
    split
    · next lt => rw [h rest lt]
    · rfl
  · rfl
  · rfl

theorem rounds_eq {name : String} {p : Step α} {n m : Nat} {s : Input} (hn : s.length ≤ n)
    (hm : s.length ≤ m) : rounds name p n s = rounds name p m s := by
  induction n generalizing m s with
  | zero =>
    cases m with
    | zero => rfl
    | succ m => exact round_congr fun rest lt => absurd lt (by omega)
  | succ n ih =>
    cases m with
    | zero => exact round_congr fun rest lt => absurd lt (by omega)
    | succ m => exact round_congr fun rest lt => ih (by omega) (by omega)

theorem many_eq_round (name : String) (p : Step α) (s : Input) :
    many name p s = round name p (many name p) s := by
  rw [many, rounds_eq (Nat.le_refl _) (Nat.le_succ _)]
  exact round_congr fun rest lt => rounds_eq (Nat.le_of_lt lt) (Nat.le_refl _)

theorem reply_many_of_matched {name : String} {p : Step α} {s rest : Input} {a : α}
    (h : (p s).reply = .matched a rest) (lt : rest.length < s.length) :
    (many name p s).reply = (many name p rest).reply.map (a :: ·) := by
  rw [many_eq_round]
  simp [round, h, lt]

theorem reply_many_of_stuck {name : String} {p : Step α} {s rest : Input} {a : α}
    (h : (p s).reply = .matched a rest) (le : s.length ≤ rest.length) :
    (many name p s).reply = .raised (.emptyRepeat name) := by
  rw [many_eq_round]
  simp [round, h, Nat.not_lt.2 le]

theorem reply_many_of_failed {name : String} {p : Step α} {s rest : Input} {reason : String}
    (h : (p s).reply = .failed reason rest) : (many name p s).reply = .matched [] s := by
  rw [many_eq_round]
  simp [round, h]

theorem reply_many_of_raised {name : String} {p : Step α} {s : Input} {fault : Fault}
    (h : (p s).reply = .raised fault) : (many name p s).reply = .raised fault := by
  rw [many_eq_round]
  simp [round, h]

@[simp] theorem reply_logged (debug : Bool) (name : String) (p : Step Value) (s : Input) :
    (logged debug name p s).reply = (p s).reply := by
  cases debug <;> rfl

end Step

end ParserKit

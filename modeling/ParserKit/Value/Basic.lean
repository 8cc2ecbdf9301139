import ParserKit.Decimal.Shortest
import ParserKit.Expr.Basic

namespace ParserKit

inductive Value
  | nothing
  | bool (b : Bool)
  | int (n : Int)
  | float (x : Float)
  | text (s : String)
  | list (items : List Value)
  | tuple (items : List Value)
  | dict (entries : List (String × Value))
  | failure (reason : String)
  | operator (op : Operator)
  | expr (e : Expr)

namespace Value

def isFailure : Value → Bool
  | failure _ => true
  | _ => false

def insertEntry (key : String) (value : Value) : List (String × Value) → List (String × Value)
  | [] => [(key, value)]
  | (k, v) :: rest => if k = key then (k, value) :: rest else (k, v) :: insertEntry key value rest

def ofEntries (entries : List (String × Value)) : Value :=
  dict (entries.foldl (fun acc (k, v) => insertEntry k v acc) [])

theorem keys_insertEntry (key : String) (value : Value) (entries : List (String × Value)) :
    (insertEntry key value entries).map Prod.fst =
      if key ∈ entries.map Prod.fst then entries.map Prod.fst
      else entries.map Prod.fst ++ [key] := by
  induction entries with
  | nil => simp [insertEntry]
  | cons entry rest ih =>
    obtain ⟨k, v⟩ := entry
    by_cases h : k = key
    · simp [insertEntry, h]
    · have h' : ¬ key = k := fun e => h e.symm
      simp only [insertEntry, h, if_false, List.map_cons, ih, List.mem_cons, h', false_or]
      split <;> simp

def items? : Value → Option (List Value)
  | list vs => some vs
  | tuple vs => some vs
  | _ => none

def item (k : Nat) (v : Value) : Value := (v.items?.bind (·[k]?)).getD nothing

def cons (head : Value) : Value → Value
  | list vs => list (head :: vs)
  | v => v

@[simp] theorem item_list (k : Nat) (vs : List Value) : (list vs).item k = vs[k]?.getD nothing := rfl

@[simp] theorem item_tuple (k : Nat) (vs : List Value) : (tuple vs).item k = vs[k]?.getD nothing := rfl

@[simp] theorem cons_list (v : Value) (vs : List Value) : cons v (list vs) = list (v :: vs) := rfl

def joinTexts : List Value → Except Fault String
  | [] => .ok ""
  | text s :: rest => (joinTexts rest).map (s ++ ·)
  | _ :: _ => .error .notText

/-- The texts of a sequence joined into one.  A dictionary counts as the sequence of its keys, and
a text as the sequence of its characters. -/
def concat : Value → Except Fault Value
  | text s => .ok (text s)
  | list vs => (joinTexts vs).map text
  | tuple vs => (joinTexts vs).map text
  | dict entries => .ok (text (String.join (entries.map Prod.fst)))
  | _ => .error .notText

def chars : Value → List Char
  | text s => s.toList
  | list vs => vs.flatMap fun | text s => s.toList | _ => []
  | _ => []

def negated : Value → Value
  | int n => int (-n)
  | v => v

def wholeOfFloat? (x : Float) : Option Int :=
  match Decimal.Parts.ofBits x.toBits.toNat with
  | .finite ⟨negative, m, q⟩ =>
    let size := Nat.pow 2 (-q).toNat
    if m % size = 0 then
      let n : Int := (m * Nat.pow 2 q.toNat / size : Nat)
      some (if negative then -n else n)
    else none
  | _ => none

def whole? : Value → Option Int
  | bool b => some (if b then 1 else 0)
  | int n => some n
  | float x => wholeOfFloat? x
  | _ => none

mutual
/-- Numbers are equal when they denote the same number, whatever their type. -/
def equals : Value → Value → Bool
  | nothing, nothing => true
  | float x, float y => x == y
  | text s, text t => s == t
  | list xs, list ys => equalsAll xs ys
  | tuple xs, tuple ys => equalsAll xs ys
  | dict xs, dict ys => xs.length == ys.length && containsAll xs ys
  | failure r, failure r' => r == r'
  | operator o, operator o' => o == o'
  | expr e, expr e' => e == e'
  | v, w => match v.whole?, w.whole? with
    | some m, some n => m == n
    | _, _ => false

def equalsAll : List Value → List Value → Bool
  | [], [] => true
  | x :: xs, y :: ys => equals x y && equalsAll xs ys
  | _, _ => false

def containsAll : List (String × Value) → List (String × Value) → Bool
  | [], _ => true
  | (k, v) :: rest, ys =>
    (match ys.lookup k with
      | some w => equals v w
      | none => false) && containsAll rest ys
end

end Value

end ParserKit

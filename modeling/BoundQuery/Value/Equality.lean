import BoundQuery.Decimal.Shortest
import BoundQuery.Value.Sequence

/-!
# Equal values

Numbers of different types are equal when they are the same number, and truth values count as
zero and one; no number that is not a number is equal to any. Text is compared with whatever
counts as text. Otherwise values of different types differ: a list is not a tuple. Sets and
mappings disregard order. Streams have no comparison but identity, so two of them differ.

A value has a hash unless it holds a list, a set or a mapping where its equality depends on it.

## Main definitions

* `Value.same`: equality of values.
* `Value.unhashable?`: the type name of the part that keeps a value from having a hash.
-/

namespace BoundQuery

namespace Value

/-- The number that a value stands for, whole or not. -/
def number? : Value → Option (Int ⊕ Float)
  | bool b => some (.inl (if b then 1 else 0))
  | int i => some (.inl i)
  | float x => some (.inr x)
  | _ => none

/-- Whether a whole number and a floating point number are the same. -/
def sameIntFloat (i : Int) (x : Float) : Bool :=
  ((FloatParts.ofFloat? x).bind FloatParts.toInt?) == some i

def sameNumber : Int ⊕ Float → Int ⊕ Float → Bool
  | .inl i, .inl j => i == j
  | .inl i, .inr y => sameIntFloat i y
  | .inr x, .inl j => sameIntFloat j x
  | .inr x, .inr y => x == y

def sameRange (a b : Int × Int × Int) : Bool :=
  let n := rangeLength a.1 a.2.1 a.2.2
  n == rangeLength b.1 b.2.1 b.2.2 &&
    (n == 0 || (a.1 == b.1 && (n == 1 || a.2.2 == b.2.2)))

mutual

def same : Value → Value → Bool
  | null, null => true
  | list xs, list ys => sameAll xs ys
  | tuple xs, tuple ys => sameAll xs ys
  | set xs, set ys => xs.length == ys.length && within xs ys
  | mapping xs, mapping ys => xs.length == ys.length && entriesWithin xs ys
  | range start stop step, range start' stop' step' =>
    sameRange (start, stop, step) (start', stop', step')
  | bytes xs, bytes ys => xs == ys
  | fragment e s, fragment e' s' => same e e' && same s s'
  | predicate p, predicate q => samePredicate p q
  | statement r, statement r' => r == r'
  | v, w =>
    match v.text?, w.text?, v.number?, w.number? with
    | some s, some t, _, _ => s == t
    | _, _, some m, some n => sameNumber m n
    | _, _, _, _ => false

def sameAll : List Value → List Value → Bool
  | [], [] => true
  | x :: xs, y :: ys => same x y && sameAll xs ys
  | _, _ => false

/-- Whether every value of one list is equal to some value of another. -/
def within : List Value → List Value → Bool
  | [], _ => true
  | x :: xs, ys => ys.any (same x ·) && within xs ys

def entriesWithin : List (Value × Value) → List (Value × Value) → Bool
  | [], _ => true
  | (k, v) :: xs, ys => ys.any (fun e => same k e.1 && same v e.2) && entriesWithin xs ys

def samePredicate : Predicate Value → Predicate Value → Bool
  | .comparison op e v, .comparison op' e' v' => op == op' && e == e' && same v v'
  | .between e a b, .between e' a' b' => e == e' && same a a' && same b b'
  | .isIn e vs, .isIn e' vs' => e == e' && sameAll vs vs'
  | .nullCheck e n, .nullCheck e' n' => e == e' && n == n'
  | .not p, .not q => samePredicate p q
  | .junction j p ps, .junction j' q qs => j == j' && samePredicate p q && samePredicates ps qs
  | _, _ => false

def samePredicates : List (Predicate Value) → List (Predicate Value) → Bool
  | [], [] => true
  | p :: ps, q :: qs => samePredicate p q && samePredicates ps qs
  | _, _ => false

end

mutual

/-- The type name of the first part that keeps a value from having a hash. -/
def unhashable? : Value → Option String
  | list _ => some "list"
  | set _ => some "set"
  | mapping _ => some "dict"
  | tuple items => unhashableAmong? items
  | fragment e s => (unhashable? e).or (unhashable? s)
  | predicate p => unhashableIn? p
  | _ => none

def unhashableAmong? : List Value → Option String
  | [] => none
  | x :: xs => (unhashable? x).or (unhashableAmong? xs)

def unhashableIn? : Predicate Value → Option String
  | .comparison _ _ v => unhashable? v
  | .between _ a b => (unhashable? a).or (unhashable? b)
  | .isIn _ vs => unhashableAmong? vs
  | .nullCheck _ _ => none
  | .not p => unhashableIn? p
  | .junction _ p ps => (unhashableIn? p).or (unhashableInAll? ps)

def unhashableInAll? : List (Predicate Value) → Option String
  | [] => none
  | p :: ps => (unhashableIn? p).or (unhashableInAll? ps)

end

end Value

def Predicate.same (p q : Predicate Value) : Bool := Value.samePredicate p q

end BoundQuery

import BoundQuery.Statement.Call
import BoundQuery.Statement.Text

/-!
# Stores

Statements stand in a store under their identities, so that one statement may be a column or a
branch of several others, and a change to it shows in all of them. A store only grows.

Writing a statement goes down its columns and branches. On the way down no statement comes up
twice, unless one is a part of itself; so the number of statements bounds the depth, and going
deeper is a failure.

## Main definitions

* `Store`: statements by identity.
* `Store.text`: the text of a statement.
* `Store.create`, `Store.call`: a new statement, and a call on one.
-/

namespace BoundQuery

/-- Statements, each in the place that its identity names. -/
structure Store where
  statements : List Statement

namespace Store

def empty : Store := ⟨[]⟩

def size (store : Store) : Nat := store.statements.length

def get? (store : Store) (r : Ref) : Option Statement := store.statements[r.index]?

/-- The statement with a given identity; without one it is a failure. -/
def find (store : Store) (r : Ref) : Except Failure Statement :=
  match store.get? r with
  | some s => .ok s
  | none => .error .unknownStatement

def set (store : Store) (r : Ref) (s : Statement) : Store := ⟨store.statements.set r.index s⟩

def keep (store : Store) (count : Nat) : Store := ⟨store.statements.take count⟩

/-- The texts of statements at most so deep. -/
def textWithin (store : Store) : Nat → Resolver
  | 0, _ => .error .cyclic
  | depth + 1, r => do
    let s ← store.find r
    s.text (textWithin store depth) r.variant

/-- The texts of statements. -/
def text (store : Store) : Resolver := store.textWithin (store.size + 1)

def add (store : Store) (s : Statement) : Store := ⟨store.statements ++ [s]⟩

def create (variant : Variant) (s : Statement) : Run Store Ref :=
  ⟨fun store => ⟨store.add s, [], .ok ⟨variant, store.size⟩⟩⟩

def call (r : Ref) (c : Call) : Run Store Unit :=
  ⟨fun store =>
    match store.get? r with
    | none => ⟨store, [], .error .unknownStatement⟩
    | some s =>
      let o := (c.perform store.text).run s
      ⟨store.set r o.state, o.events, o.result⟩⟩

@[simp] theorem size_set (store : Store) (r : Ref) (s : Statement) :
    (store.set r s).size = store.size := by
  simp [set, size]

theorem get?_set (store : Store) (r q : Ref) (s : Statement) :
    (store.set r s).get? q =
      if r.index = q.index then (store.get? q).map fun _ => s else store.get? q := by
  simp only [set, get?, List.getElem?_set]
  by_cases h : r.index = q.index
  · by_cases hq : q.index < store.statements.length <;> simp [h, hq]
  · simp [h]

theorem set_of_get? {store : Store} {r : Ref} {s : Statement} (h : store.get? r = some s) :
    store.set r s = store := by
  obtain ⟨hr, rfl⟩ := List.getElem?_eq_some_iff.1 h
  simp [set]

@[simp] theorem run_create (variant : Variant) (s : Statement) (store : Store) :
    (create variant s).run store = ⟨store.add s, [], .ok ⟨variant, store.size⟩⟩ := rfl

theorem text_of_get? {store : Store} {r : Ref} {s : Statement} (h : store.get? r = some s) :
    store.text r = s.text (store.textWithin store.size) r.variant := by
  simp only [text, textWithin, find, h]
  rfl

end Store

end BoundQuery

import BoundQuery.Json.Basic
import BoundQuery.Value.Display

/-!
# Values as documents

Every value that a document can hold is written into one. Tuples and sets become arrays, bytes
become the text that they encode, a number that is not finite becomes null, and a predicate
becomes an object with its tag first. Keys become text, and keys with the same text stay apart.
The way back gives plain values: what was a tuple is a list, and a member whose name comes up again
takes the later value.

The levels of what is written are limited. A value inside another is one level deeper. A predicate
on its own is no level, unless it has conditions. Those are first made into documents, which takes
a level for each predicate on the way to an operand, and then these documents are written inside it
with all their levels: their tags, texts and arrays count as any other document does.

## Main definitions

* `Predicate.document`: the document of a predicate whose operands are documents.
* `Predicate.inside`: the levels that are left inside a predicate.
* `Predicate.documentIfFits`: the document of a predicate, if those of its conditions have few
  enough levels.
* `Value.memberName`: the name of a member for a key.
* `Value.documentWithin`: the document of a value with a limited number of levels.
* `Predicate.toDocument`: the document of a predicate.
* `Value.ofDocument`: the value of a document.
-/

namespace BoundQuery

namespace Predicate

mutual

/-- The document of a predicate whose operands are documents. -/
def document : Predicate Json → Json
  | comparison op expr value =>
    .object [("kind", .text "comparison"), ("op", .text op.symbol), ("expr", .text expr),
      ("value", value)]
  | between expr start stop =>
    .object [("kind", .text "between"), ("expr", .text expr), ("start", start), ("end", stop)]
  | isIn expr values =>
    .object [("kind", .text "in"), ("expr", .text expr), ("values", .array values)]
  | nullCheck expr negated =>
    .object [("kind", .text "null_check"), ("expr", .text expr), ("negated", .bool negated)]
  | not child => .object [("kind", .text "not"), ("child", document child)]
  | junction joiner first rest =>
    .object [("kind", .text "junction"), ("joiner", .text joiner.name),
      ("children", .array (document first :: documents rest))]

def documents : List (Predicate Json) → List Json
  | [] => []
  | p :: rest => document p :: documents rest

end

theorem documents_eq_map (ps : List (Predicate Json)) : documents ps = ps.map document := by
  induction ps with
  | nil => rfl
  | cons p rest ih => simp [documents, ih]

/-- The levels that are left inside a predicate: one with conditions takes a level itself. -/
def inside {α : Type} (levels : Nat) (p : Predicate α) : Nat :=
  if p.children.isEmpty then levels else levels - 1

/-- The document of a predicate whose operands are documents, if the documents of its conditions
have so many levels at most. -/
def documentIfFits (levels : Nat) (p : Predicate Json) : Except Failure Json :=
  if p.children.all fun child => child.document.levels ≤ levels then .ok p.document
  else .error .tooDeep

end Predicate

namespace Value

def statementKind (r : Ref) : String := "selectql.compile.builder." ++ r.variant.display

/-- The resolver of keys: a key that shows a statement names no member. -/
def keyResolver : Resolver := fun r => .error (.unwritableName (statementKind r))

mutual

/-- The name of a member for a key. -/
def memberName : Value → Except Failure String
  | text s => .ok s
  | operation op => .ok op.name
  | connective c => .ok c.name
  | null => .ok "None"
  | bool b => .ok (if b then "true" else "false")
  | int i => .ok (toString i)
  | float x => .ok (if x.isFinite then style.write x else "None")
  | bytes bs => (Utf8.decode bs).mapError (.unwritableNameBytes bs)
  | tuple items => do return ",".intercalate (← memberNames items)
  | fragment expression separator => display keyResolver (fragment expression separator)
  | predicate p => display keyResolver (predicate p)
  | range .. => .error (.unwritableName "range")
  | statement r => .error (.unwritableName (statementKind r))
  | v => .error (.notName v.kindName)

def memberNames : List Value → Except Failure (List String)
  | [] => .ok []
  | v :: rest => do
    let name ← memberName v
    return name :: (← memberNames rest)

end

mutual

/-- The document of a value, of so many levels at most. -/
def documentWithin : Nat → Value → Except Failure Json
  | 0, _ => .error .tooDeep
  | _ + 1, null => .ok .null
  | _ + 1, bool b => .ok (.bool b)
  | _ + 1, int i => .ok (.int i)
  | _ + 1, float x => .ok (if x.isFinite then .float x else .null)
  | _ + 1, text s => .ok (.text s)
  | _ + 1, operation op => .ok (.text op.name)
  | _ + 1, connective c => .ok (.text c.name)
  | _ + 1, bytes bs => .text <$> (Utf8.decode bs).mapError .unwritableBytes
  | levels + 1, list items => .array <$> documentsWithin levels items
  | levels + 1, tuple items => .array <$> documentsWithin levels items
  | levels + 1, set items => .array <$> documentsWithin levels items
  | levels + 1, stream items => .array <$> documentsWithin levels items
  | levels + 1, mapping entries => .object <$> membersWithin levels entries
  | levels + 1, fragment expression separator => do
    let expression ← documentWithin levels expression
    let separator ← documentWithin levels separator
    return .object [("expression", expression), ("separator", separator)]
  | levels + 1, predicate p => do
    let inside := p.inside levels
    (← operandsWithin inside p).documentIfFits inside
  | _ + 1, range .. => .error (.unwritable "range")
  | _ + 1, statement r => .error (.unwritable (statementKind r))

def documentsWithin (levels : Nat) : List Value → Except Failure (List Json)
  | [] => .ok []
  | v :: rest => do
    let first ← documentWithin levels v
    return first :: (← documentsWithin levels rest)

def membersWithin (levels : Nat) : List (Value × Value) → Except Failure (List (String × Json))
  | [] => .ok []
  | (key, value) :: rest => do
    let name ← memberName key
    let first ← documentWithin levels value
    return (name, first) :: (← membersWithin levels rest)

/-- A predicate with the documents of its operands, which are of so many levels at most, less one
for each condition that they are inside of. -/
def operandsWithin : Nat → Predicate Value → Except Failure (Predicate Json)
  | levels, .comparison op expr value => .comparison op expr <$> documentWithin levels value
  | levels, .between expr start stop => do
    let start ← documentWithin levels start
    return .between expr start (← documentWithin levels stop)
  | levels, .isIn expr values => .isIn expr <$> documentsWithin levels values
  | _, .nullCheck expr negated => .ok (.nullCheck expr negated)
  | 0, .not _ => .error .tooDeep
  | levels + 1, .not child => .not <$> operandsWithin levels child
  | 0, .junction .. => .error .tooDeep
  | levels + 1, .junction joiner first rest => do
    let first ← operandsWithin levels first
    return .junction joiner first (← operandsOfAllWithin levels rest)

def operandsOfAllWithin (levels : Nat) :
    List (Predicate Value) → Except Failure (List (Predicate Json))
  | [] => .ok []
  | p :: rest => do
    let first ← operandsWithin levels p
    return first :: (← operandsOfAllWithin levels rest)

end

/-- The most levels that are written. -/
def maxLevels : Nat := 255

/-- Entries with one more in front; where its name comes up later, the later value is the one that
stays. -/
def putFirst (name : String) (value : Value) (entries : List (Value × Value)) :
    List (Value × Value) :=
  match field? name entries with
  | some later => (text name, later) :: entries.filter fun e => !e.1.isText name
  | none => (text name, value) :: entries

mutual

/-- The value of a document. -/
def ofDocument : Json → Value
  | .null => null
  | .bool b => bool b
  | .int i => int i
  | .float x => float x
  | .text s => text s
  | .array items => list (ofDocuments items)
  | .object members => mapping (ofMembers members)

def ofDocuments : List Json → List Value
  | [] => []
  | document :: rest => ofDocument document :: ofDocuments rest

/-- The entries of the members of an object. -/
def ofMembers : List (String × Json) → List (Value × Value)
  | [] => []
  | (name, document) :: rest => putFirst name (ofDocument document) (ofMembers rest)

end

theorem ofDocuments_eq_map (documents : List Json) :
    ofDocuments documents = documents.map ofDocument := by
  induction documents with
  | nil => rfl
  | cons document rest ih => simp [ofDocuments, ih]

end Value

/-- The document of a predicate on its own, which is not counted as a value of its own. -/
def Predicate.toDocument (p : Predicate Value) : Except Failure Json :=
  Value.documentWithin (Value.maxLevels + 1) (.predicate p)

end BoundQuery

import RingRelay.Toml.Value
/- Putting a document together from its headers and its lines, in the order in which they come.

   A table may be written once. While the document grows, each table remembers how it came about: a
   header named it, a header named something inside it, or a dotted key did. A header may still name
   a table of the second kind, and dotted keys may still add to one of the second or third; all else
   that names a table again is refused, as is every key that has a value already. -/
namespace RingRelay.Toml

/-- How a table came about. -/
inductive Origin
  /-- A header named it. -/
  | header
  /-- A header named something inside it. -/
  | outer
  /-- A dotted key named something inside it. -/
  | dotted
  deriving DecidableEq, Repr

/-- A part of a document that is still being put together. -/
inductive Node
  /-- A finished value. -/
  | value (v : Value)
  | table (origin : Origin) (entries : List (String × Node))
  /-- An array of tables, with the last one apart: it is the one that can still grow. -/
  | tables (before : List (List (String × Node))) (last : List (String × Node))

/-- The keys of a table that is still being put together. -/
abbrev Branch := List (String × Node)

mutual

/-- A part of a document as a value. -/
def Node.finish : Node → Value
  | .value v => v
  | .table _ entries => .table (finishEntries entries)
  | .tables before last => .array (finishTables before ++ [.table (finishEntries last)])

def finishEntries : List (String × Node) → List (String × Value)
  | [] => []
  | (key, node) :: rest => (key, node.finish) :: finishEntries rest

def finishTables : List (List (String × Node)) → List Value
  | [] => []
  | entries :: rest => .table (finishEntries entries) :: finishTables rest

end

namespace Branch

/-- The branch with another node for a key that it has, or with a new key. -/
def put (key : String) (node : Node) : Branch → Branch
  | [] => [(key, node)]
  | (k, n) :: rest => if k = key then (key, node) :: rest else (k, n) :: put key node rest

/-- The branch without a key. -/
def erase (branch : Branch) (key : String) : Branch := branch.filter fun entry => entry.1 != key

/-- Goes down a path of keys and changes the table there, making the tables that are missing.
    `origin` tells whether a header or a dotted key leads the way, and `here` how the table came
    about from which the way starts; `change` is told how the table came about to which it leads. -/
def change {α : Type} (origin : Origin) (f : Origin → Branch → Option (α × Branch)) :
    (here : Origin) → (path : List String) → Branch → Option (α × Branch)
  | here, [], branch => f here branch
  | _, key :: path, branch =>
    match branch.lookup key with
    | none => do
      let (a, entries) ← change origin f origin path []
      return (a, branch.put key (.table origin entries))
    | some (.value _) => none
    | some (.tables before last) => do
      let (a, last) ← change origin f .header path last
      return (a, branch.put key (.tables before last))
    | some (.table there entries) => do
      guard (origin = .outer ∨ there ≠ .header)
      let (a, entries) ← change origin f there path entries
      return (a, branch.put key (.table there entries))

/-- Gives a dotted key its value. The key must be new, and the tables on its way must have come
    about by dotted keys. -/
def addValue (path : List String) (key : String) (v : Value) (branch : Branch) : Option Branch :=
  (·.2) <$> change .dotted (fun here entries => do
    guard (path.isEmpty ∨ here = .dotted)
    guard (entries.lookup key).isNone
    return ((), entries ++ [(key, .value v)])) .header path branch

end Branch

/-- A document of which some lines have been read: the tables that are complete, and the one that
    the last header named. -/
structure Draft where
  root : Branch
  /-- The keys of the last header, which are none before the first. -/
  path : List String
  /-- Whether the last header named one more table of an array. -/
  isElement : Bool
  current : Branch

namespace Draft

def empty : Draft := ⟨[], [], false, []⟩

/-- Puts the table that the last header named into its place. -/
def close (draft : Draft) : Option Branch :=
  match draft.path.getLast? with
  | none => some draft.current
  | some key =>
    (·.2) <$> Branch.change .outer (fun _ entries =>
      match entries.lookup key, draft.isElement with
      | none, false => some ((), entries ++ [(key, .table .header draft.current)])
      | none, true => some ((), entries ++ [(key, .tables [] draft.current)])
      | some (.tables before last), true =>
        some ((), Branch.put key (.tables (before ++ [last]) draft.current) entries)
      | _, _ => none) .header draft.path.dropLast draft.root

/-- A header that names a table. If the table came about as the outer table of another one, it keeps
    what it has. -/
def openTable (draft : Draft) (path : List String) : Option Draft := do
  let root ← draft.close
  let key ← path.getLast?
  let (current, root) ← Branch.change .outer (fun _ entries =>
    match entries.lookup key with
    | none => some ([], entries)
    | some (.table .outer kept) => some (kept, entries.erase key)
    | some _ => none) .header path.dropLast root
  return { root, path, isElement := false, current }

/-- A header that names one more table of an array. -/
def openElement (draft : Draft) (path : List String) : Option Draft := do
  let root ← draft.close
  let key ← path.getLast?
  let ((), root) ← Branch.change .outer (fun _ entries =>
    match entries.lookup key with
    | none => some ((), entries)
    | some (.tables _ _) => some ((), entries)
    | some _ => none) .header path.dropLast root
  return { root, path, isElement := true, current := [] }

/-- A line that gives a dotted key its value. -/
def addLine (draft : Draft) (path : List String) (key : String) (v : Value) : Option Draft := do
  let current ← draft.current.addValue path key v
  return { draft with current }

/-- The whole document. -/
def finish (draft : Draft) : Option Table := do
  let root ← draft.close
  return finishEntries root

end Draft

end RingRelay.Toml

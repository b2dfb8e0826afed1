import MetaCache.Schema.Tree

/-!
# Tables of TOML

A document puts its tables together from pieces: a header defines a table, a dotted key defines all
tables on its way, and either may bring about tables that nothing has defined yet. What has been
defined must not be defined again, and a dotted key must not reach into a table that a header has
defined.

So an entry remembers how it came about. Entries keep the order in which they were added; a table
whose header comes after that of a table inside it moves to the end.
-/

namespace MetaCache.Toml

/-- How a table came about. -/
inductive Origin
  /-- By a header of its own. -/
  | header
  /-- On the way of another table's header. -/
  | wayOfHeader
  /-- On the way of a dotted key. -/
  | wayOfKey
  deriving DecidableEq, Repr

/-- An entry of a table. -/
inductive Entry
  | value (content : Tree)
  | table (origin : Origin) (members : List (String × Entry))
  /-- The tables of one array, last one first. -/
  | tables (elements : List (List (String × Entry)))
  deriving Inhabited

/-- Entries under distinct names. -/
abbrev Members := List (String × Entry)

mutual
/-- An entry as data. -/
def Entry.toTree : Entry → Tree
  | .value content => content
  | .table _ members => .map (memberTrees members)
  | .tables elements => .sequence (elementTrees elements).reverse

def memberTrees : List (String × Entry) → List (String × Tree)
  | [] => []
  | (name, entry) :: rest => (name, entry.toTree) :: memberTrees rest

def elementTrees : List (List (String × Entry)) → List Tree
  | [] => []
  | members :: rest => .map (memberTrees members) :: elementTrees rest
end

namespace Members

/-- Replaces the entry under `name`, or adds it at the end. -/
def put (name : String) (entry : Entry) : Members → Members
  | [] => [(name, entry)]
  | (other, kept) :: rest =>
    if other = name then (name, entry) :: rest else (other, kept) :: put name entry rest

def remove (name : String) (members : Members) : Members := members.filter (·.1 ≠ name)

/-- Changes the table at the end of a path by `change`, which is told how that table came about.
Tables that are missing on the way are added as `missing`; a dotted key passes only through tables
that no header has defined. -/
def within (missing : Origin) (change : Origin → Members → Option Members) :
    List String → Origin → Members → Option Members
  | [], origin, members => change origin members
  | name :: path, _, members =>
    match members.lookup name with
    | none => do
      let inner ← within missing change path missing []
      return members ++ [(name, .table missing inner)]
    | some (.value _) => none
    | some (.tables []) => none
    | some (.tables (last :: others)) => do
      let inner ← within missing change path .header last
      return members.put name (.tables (inner :: others))
    | some (.table origin inner) =>
      if missing = .wayOfKey ∧ origin = .header then none
      else do
        let inner ← within missing change path origin inner
        return members.put name (.table origin inner)

/-- Adds a value under a dotted key. The table that gets it must be the one at hand or have come
about by dotted keys, and must not have that name yet. -/
def addValue (key : List String) (content : Tree) (origin : Origin) (members : Members) :
    Option Members :=
  match key.getLast? with
  | none => none
  | some name =>
    let path := key.dropLast
    within .wayOfKey
      (fun origin inner =>
        if path ≠ [] ∧ origin ≠ .wayOfKey then none
        else if (inner.lookup name).isSome then none
        else some (inner ++ [(name, .value content)]))
      path origin members

end Members

/-- A document up to some line: the finished part, and the table that lines go into. -/
structure Assembly where
  root : Members
  current : Members
  /-- The path of the current table; the root is current before the first header. -/
  path : List String
  /-- Whether the current table is one of an array. -/
  isElement : Bool

namespace Assembly

def start : Assembly := ⟨[], [], [], false⟩

/-- Adds a line with a key and a value. -/
def addLine (a : Assembly) (key : List String) (content : Tree) : Option Assembly := do
  return { a with current := ← Members.addValue key content .header a.current }

/-- The root with the current table in its place. -/
def finish (a : Assembly) : Option Members :=
  match a.path.getLast? with
  | none => some a.current
  | some name =>
    Members.within .wayOfHeader
      (fun _ inner =>
        if a.isElement then
          match inner.lookup name with
          | none => some (inner ++ [(name, .tables [a.current])])
          | some (.tables elements) =>
            some (Members.put name (.tables (a.current :: elements)) inner)
          | some _ => none
        else
          match inner.lookup name with
          | none => some (inner ++ [(name, .table .header a.current)])
          | some _ => none)
      a.path.dropLast .header a.root

/-- What a table that gets its header now has already: the tables inside it that came first. Their
table is taken out of its place until it is finished. -/
def takeOut (name : String) (members : Members) : Option (Members × Members) :=
  match members.lookup name with
  | none => some (members, [])
  | some (.table .wayOfHeader inner) => some (members.remove name, inner)
  | some _ => none

/-- The table at a path, which is there. -/
def find : List String → Members → Members
  | [], members => members
  | name :: path, members =>
    match members.lookup name with
    | some (.table _ inner) => find path inner
    | some (.tables (last :: _)) => find path last
    | _ => []

/-- Begins the table of a header. -/
def openTable (a : Assembly) (path : List String) : Option Assembly := do
  let root ← a.finish
  let name ← path.getLast?
  let way := path.dropLast
  let opened ← Members.within .wayOfHeader (fun _ inner => some inner) way .header root
  let (_, kept) ← takeOut name (find way opened)
  let root ← Members.within .wayOfHeader (fun _ inner => (takeOut name inner).map Prod.fst) way
    .header opened
  return ⟨root, kept, path, false⟩

/-- Begins one more table of the array that a header names. -/
def openElement (a : Assembly) (path : List String) : Option Assembly := do
  let root ← a.finish
  let name ← path.getLast?
  let root ← Members.within .wayOfHeader
    (fun _ inner =>
      match inner.lookup name with
      | none => some (inner ++ [(name, .tables [])])
      | some (.tables _) => some inner
      | some _ => none)
    path.dropLast .header root
  return ⟨root, [], path, true⟩

end Assembly

end MetaCache.Toml

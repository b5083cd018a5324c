import LineLint.Toml.Reader

/-! # TOML documents

The statements of a document build up its tables. A table is *implicit* as long as it exists only
because a path led through it, and *dotted* if the path stood in front of an entry. A header may
take over a table that is implicit and not dotted; an entry may add to a table of a dotted path;
anything else that would define a table or a key twice is refused.
-/

namespace LineLint.Toml

mutual

/-- What a key stands for while a document is built. -/
inductive Item where
  | value (value : Value)
  | table (table : Table)
  /-- The tables of headers in double brackets, in order. -/
  | tables (tables : List Table)

inductive Table where
  | mk (isImplicit isDotted : Bool) (entries : List (String × Item))

end

namespace Table

/-- The table of a header, without entries. -/
def empty : Table := mk false false []

/-- Whether the table exists only because a path led through it. -/
def isImplicit : Table → Bool
  | mk isImplicit _ _ => isImplicit

/-- Whether that path stood in front of an entry. -/
def isDotted : Table → Bool
  | mk _ isDotted _ => isDotted

def entries : Table → List (String × Item)
  | mk _ _ entries => entries

def withEntries (table : Table) (entries : List (String × Item)) : Table :=
  mk table.isImplicit table.isDotted entries

def find? (table : Table) (key : String) : Option Item :=
  (table.entries.find? fun entry => entry.1 == key).map Prod.snd

/-- Puts an item under a key: in its place if the key is there, at the end if not. -/
def insert (table : Table) (key : String) (item : Item) : Table :=
  if (table.find? key).isSome then
    table.withEntries (table.entries.map fun entry => if entry.1 == key then (key, item) else entry)
  else table.withEntries (table.entries ++ [(key, item)])

def erase (table : Table) (key : String) : Table :=
  table.withEntries (table.entries.filter fun entry => entry.1 != key)

/-- Applies a change to the table at the end of a path and gives back what the change gives
besides. Missing tables on the way are made. A path leads through the last of several tables, and
not through a value; in front of an entry, not through a table that has a header of its own. -/
def change {α : Type} (dotted : Bool) (f : Table → Option (α × Table)) :
    List String → Table → Option (α × Table)
  | [], table => f table
  | key :: path, table => do
    match table.find? key with
    | none =>
      let (result, child) ← change dotted f path (mk true dotted [])
      some (result, table.insert key (.table child))
    | some (.value _) => none
    | some (.tables tables) =>
      let last ← tables.getLast?
      let (result, last) ← change dotted f path last
      some (result, table.insert key (.tables (tables.dropLast ++ [last])))
    | some (.table child) =>
      if dotted && !child.isImplicit then none
      else
        let (result, child) ← change dotted f path child
        some (result, table.insert key (.table child))

/-- Adds an entry behind a path. The key must be new, and the path must be one of entries. -/
def addEntry? (table : Table) (entry : Entry) : Option Table :=
  let add (target : Table) : Option (Unit × Table) :=
    if target.isDotted == entry.path.isEmpty then none
    else if (target.find? entry.key).isSome then none
    else some ((), target.insert entry.key (.value entry.value))
  (change true add entry.path table).map Prod.snd

mutual

/-- The value that an item has in the end. -/
def itemValue : Item → Value
  | .value value => value
  | .table table => .table (tableEntries table)
  | .tables tables => .array (tableValues tables)

/-- The entries that a table has in the end. -/
def tableEntries : Table → List (String × Value)
  | mk _ _ entries => entryValues entries

/-- The values that items have in the end, with their keys. -/
def entryValues : List (String × Item) → List (String × Value)
  | [] => []
  | (key, item) :: rest => (key, itemValue item) :: entryValues rest

/-- The values that several tables have in the end. -/
def tableValues : List Table → List Value
  | [] => []
  | table :: rest => .table (tableEntries table) :: tableValues rest

end

/-- The value of an inline table with these entries, if they may stand together. -/
def inline? (entries : List Entry) : Option Value :=
  (entries.foldlM addEntry? empty).map fun table => .table (tableEntries table)

end Table

/-- Where the entries of a document are being added: to a table that is not yet in its place. -/
structure Document where
  /-- The tables whose entries are complete. -/
  root : Table
  /-- The table that entries are added to. -/
  current : Table
  /-- Where that table belongs. -/
  path : List String
  /-- Whether it is one of several. -/
  isArrayItem : Bool

namespace Document

def empty : Document := ⟨Table.empty, Table.empty, [], false⟩

/-- Splits a path in front of its last key. -/
def splitPath? (path : List String) : Option (List String × String) :=
  path.getLast?.map fun last => (path.dropLast, last)

/-- Puts the current table in its place. -/
def close? (document : Document) : Option Table :=
  match splitPath? document.path with
  | none => some document.current
  | some (parents, key) =>
    let place (parent : Table) : Option (Unit × Table) :=
      match document.isArrayItem, parent.find? key with
      | true, none => some ((), parent.insert key (.tables [document.current]))
      | true, some (.tables tables) =>
        some ((), parent.insert key (.tables (tables ++ [document.current])))
      | false, none => some ((), parent.insert key (.table document.current))
      | _, _ => none
    (Table.change false place parents document.root).map Prod.snd

def openTable? (root : Table) (path : List String) : Option Document := do
  let (parents, key) ← splitPath? path
  let take (parent : Table) : Option (List (String × Item) × Table) :=
    match parent.find? key with
    | none => some ([], parent)
    | some (.table table) =>
      if table.isImplicit && !table.isDotted then some (table.entries, parent.erase key) else none
    | some _ => none
  let (entries, root) ← Table.change false take parents root
  some ⟨root, Table.mk false false entries, path, false⟩

/-- Opens the next of the tables of a header in double brackets. -/
def openArrayTable? (root : Table) (path : List String) : Option Document := do
  let (parents, key) ← splitPath? path
  let look (parent : Table) : Option (Unit × Table) :=
    match parent.find? key with
    | none => some ((), parent)
    | some (.tables _) => some ((), parent)
    | some _ => none
  let (_, root) ← Table.change false look parents root
  some ⟨root, Table.empty, path, true⟩

def add? (document : Document) : Statement → Option Document
  | .entry path key value => do
    let current ← document.current.addEntry? ⟨path, key, value⟩
    some { document with current := current }
  | .table path => do openTable? (← document.close?) path
  | .arrayTable path => do openArrayTable? (← document.close?) path

def ofText? (text : List Char) : Option (List (String × Value)) := do
  let statements ← Statement.ofText? Table.inline? text
  let document ← statements.foldlM add? empty
  let root ← document.close?
  some (Table.tableEntries root)

end Document

end LineLint.Toml

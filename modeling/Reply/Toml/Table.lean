import Reply.Registry

namespace Reply

/-!
# TOML values and tables under construction

A document is a table of values.  Headers and dotted keys define tables piece by
piece.  Which pieces may be added depends on how a table came about: a table that a
longer path only implied may still be defined, and one that a dotted key implied may be
added to by further dotted keys, but a table is never defined twice.
-/

namespace Toml

/--
A value of a document.  Numbers other than integers, and dates and times, are
known only by their kind: no setting is one.
-/
inductive Value
  | text (value : String)
  | truth (value : Bool)
  | integer (value : Int)
  | float
  | moment
  | array (items : List Value)
  | table (entries : List (String × Value))

/-- How a table came about. -/
inductive Origin
  | defined
  | implied
  | dotted
  deriving DecidableEq

/-- What a key of a table under construction is bound to. -/
inductive Node
  | value (value : Value)
  | table (origin : Origin) (entries : List (String × Node))
  | tables (elements : List (List (String × Node)))

/-- The entries of a table under construction. -/
abbrev Entries :=
  List (String × Node)

mutual

/-- The value a node has become. -/
def Node.finish : Node → Value
  | .value value => value
  | .table _ entries => .table (finishEntries entries)
  | .tables elements => .array (finishElements elements)

/-- The entries of a finished table. -/
def finishEntries : List (String × Node) → List (String × Value)
  | [] => []
  | (key, node) :: rest => (key, node.finish) :: finishEntries rest

/-- The elements of a finished array of tables. -/
def finishElements : List (List (String × Node)) → List Value
  | [] => []
  | entries :: rest =>
      .table (finishEntries entries) :: finishElements rest

end

namespace Entries

/-- Bind a key that is not bound yet. -/
def bind? (key : String) (node : Node) (entries : Entries) : Option Entries :=
  match Registry.find? key entries with
  | some _ => none
  | none => some (Registry.place key node entries)

/--
Change the table that a header's path leads to.

Tables on the way that are not there are implied.  In an array of tables the
path goes on in the last one.
-/
def atPath
    (change : Entries → Option Entries) :
    List String → Entries → Option Entries
  | [], entries => change entries
  | key :: path, entries =>
      match Registry.find? key entries with
      | none => do
          let inner ← atPath change path []
          some (Registry.place key (.table .implied inner) entries)
      | some (.table origin inner) => do
          let changed ← atPath change path inner
          some (Registry.place key (.table origin changed) entries)
      | some (.tables elements) => do
          let last ← elements.getLast?
          let changed ← atPath change path last
          some
            (Registry.place key
              (.tables (elements.dropLast ++ [changed])) entries)
      | some (.value _) => none

/--
Bind a key in the table that dotted keys lead to.

Tables on the way must not have been defined.  A key is bound only where
`takes` holds: in the table the keys start from, and in tables that only dotted
keys made.
-/
def define
    (key : String)
    (value : Value) :
    List String → Bool → Entries → Option Entries
  | [], takes, entries =>
      if takes then bind? key (.value value) entries else none
  | first :: path, _, entries =>
      match Registry.find? first entries with
      | none => do
          let inner ← define key value path true []
          some (Registry.place first (.table .dotted inner) entries)
      | some (.table .defined _) => none
      | some (.table origin inner) => do
          let changed ← define key value path (origin = .dotted) inner
          some (Registry.place first (.table origin changed) entries)
      | some (.tables elements) => do
          let last ← elements.getLast?
          let changed ← define key value path false last
          some
            (Registry.place first
              (.tables (elements.dropLast ++ [changed])) entries)
      | some (.value _) => none

/-- Define a table under a key; it may have been implied before. -/
def openTable (key : String) (entries : Entries) : Option Entries :=
  match Registry.find? key entries with
  | none => some (Registry.place key (.table .defined []) entries)
  | some (.table .implied inner) =>
      some (Registry.place key (.table .defined inner) entries)
  | _ => none

/-- Add an empty table to the array of tables under a key. -/
def openElement (key : String) (entries : Entries) : Option Entries :=
  match Registry.find? key entries with
  | none => some (Registry.place key (.tables [[]]) entries)
  | some (.tables elements) =>
      some (Registry.place key (.tables (elements ++ [[]])) entries)
  | _ => none

end Entries

end Toml

end Reply

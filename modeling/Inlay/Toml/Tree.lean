import Inlay.Toml.Value

set_option autoImplicit false

/-! # Trees of tables

A document is put together from headers and assignments. A table may be spread over the document
as long as no part of it is given twice: a header opens a table that was at most implied by the
headers of its subtables, a dotted key adds to a table that has no header of its own and that none
can open from then on, and a header in double brackets adds a table to a list that only such
headers have made. A table written as a value is complete.
-/

namespace Inlay.Toml

/-- What made a table. -/
inductive Origin where
  /-- The header of a table below it. -/
  | implied
  /-- A dotted key, which may have found it implied. -/
  | dotted
  /-- A header of its own. -/
  | header
  deriving DecidableEq, Repr

/-- An entry of a tree. -/
inductive Node where
  | value (v : Value)
  | table (origin : Origin) (entries : List (String × Node))
  /-- A list of tables, the last of which is open. -/
  | tables (before : List (List (String × Node))) (last : List (String × Node))

/-- The entries of a table in a tree. -/
abbrev Branch := List (String × Node)

/-- Change the entry of a key, or add one. -/
def Branch.update (key : String) (f : Option Node → Option Node) : Branch → Option Branch
  | [] => (f none).map fun n => [(key, n)]
  | (k, n) :: rest =>
    if k == key then (f (some n)).map fun n => (k, n) :: rest
    else (Branch.update key f rest).map ((k, n) :: ·)

/-- Change the table at the end of a path. Tables that are missing on the way are made; those that
are there may be passed, but a dotted key passes no table that has a header of its own, and makes an
implied one its own. -/
def Branch.within (dotted : Bool) (f : Origin → Branch → Option Branch) (path : List String)
    (origin : Origin) (b : Branch) : Option Branch :=
  match path with
  | [] => f origin b
  | key :: path =>
    b.update key fun
      | none =>
        let made := if dotted then .dotted else .implied
        (Branch.within dotted f path made []).map (.table made)
      | some (.value _) => none
      | some (.table origin entries) =>
        if dotted && origin == .header then none
        else
          let made := if dotted then .dotted else origin
          (Branch.within dotted f path made entries).map (.table made)
      | some (.tables before last) =>
        (Branch.within dotted f path .header last).map (.tables before)

/-- Add a value under a key, dotted or not, that has none yet. The table that a dotted key adds to
is one that dotted keys have made or taken over. -/
def Branch.assign (path : List String) (key : String) (v : Value) (b : Branch) : Option Branch :=
  Branch.within true (fun origin entries =>
    if (origin == .dotted) != !path.isEmpty then none
    else entries.update key fun
      | none => some (.value v)
      | some _ => none) path .header b

/-- Open the table of a header. -/
def Branch.openTable (path : List String) (key : String) (b : Branch) : Option Branch :=
  Branch.within false (fun _ entries =>
    entries.update key fun
      | none => some (.table .header [])
      | some (.table .implied entries) => some (.table .header entries)
      | some _ => none) path .header b

/-- Add a table to the list of a header in double brackets. -/
def Branch.openItem (path : List String) (key : String) (b : Branch) : Option Branch :=
  Branch.within false (fun _ entries =>
    entries.update key fun
      | none => some (.tables [] [])
      | some (.tables before last) => some (.tables (before ++ [last]) [])
      | some _ => none) path .header b

mutual

/-- The value of an entry. -/
def Node.finish : Node → Value
  | .value v => v
  | .table _ entries => .table (finishBranch entries)
  | .tables before last => .list (finishItems before ++ [.table (finishBranch last)])

/-- The entries of a finished table. -/
def finishBranch : List (String × Node) → Entries
  | [] => []
  | (key, n) :: rest => (key, n.finish) :: finishBranch rest

/-- The items of a finished list of tables. -/
def finishItems : List (List (String × Node)) → List Value
  | [] => []
  | entries :: rest => .table (finishBranch entries) :: finishItems rest

end

end Inlay.Toml

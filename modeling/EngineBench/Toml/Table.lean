import EngineBench.Toml

/-!
# Putting tables together

A document names the same tables again and again: by headers, by headers of arrays of tables, and
by keys of several parts. `Node` is what is known of a value while the document is read. A table
remembers how it came about, since that decides who may still add to it:

* a header may not name a table that was named by a header or made by a key before;
* a key may not pass through a table that was named by a header, and ends in the table of its
  header or in a table made by keys;
* nothing is added to a value.
-/

namespace EngineBench.Toml

/-- How a table came about. -/
inductive Making where
  | header
  /-- On the way to a table named by a header. -/
  | passed
  /-- On the way of a key of several parts. -/
  | keyed
  deriving DecidableEq, Repr

/-- What is known of a value while a document is read. -/
inductive Node where
  | value (v : Toml)
  | table (making : Making) (members : List (String × Node))
  /-- An array of tables, the last one first. -/
  | tables (reversed : List (List (String × Node)))

abbrev Members := List (String × Node)

namespace Members

def find? (ms : Members) (name : String) : Option Node := ms.lookup name

/-- Sets the member with a name. A new one comes last. -/
def put (name : String) (node : Node) : Members → Members
  | [] => [(name, node)]
  | (n, m) :: r => if n = name then (name, node) :: r else (n, m) :: put name node r

def add? (ms : Members) (name : String) (node : Node) : Option Members :=
  if (ms.find? name).isSome then none else some (put name node ms)

/-- Changes the table at the end of a path. Tables that are missing on the way are made. `change`
is told how the table came about. -/
def update? (making : Making) (change : Making → Members → Option Members) :
    List String → Making → Members → Option Members
  | [], self, ms => change self ms
  | name :: path, _, ms =>
    match ms.find? name with
    | none => do
      return put name (.table making (← update? making change path making [])) ms
    | some (.value _) => none
    | some (.table old inner) =>
      if making = .keyed ∧ old = .header then none
      else do return put name (.table old (← update? making change path old inner)) ms
    | some (.tables []) => none
    | some (.tables (last :: others)) => do
      return put name (.tables ((← update? making change path .header last) :: others)) ms

/-- The table that a header names, in the table of its parent. -/
def openTable? (name : String) (ms : Members) : Option Members :=
  match ms.find? name with
  | none => some (put name (.table .header []) ms)
  | some (.table .passed inner) => some (put name (.table .header inner) ms)
  | _ => none

/-- The next table of the array that a header names, in the table of its parent. -/
def openElement? (name : String) (ms : Members) : Option Members :=
  match ms.find? name with
  | none => some (put name (.tables [[]]) ms)
  | some (.tables others) => some (put name (.tables ([] :: others)) ms)
  | _ => none

/-- A value with a key of at least one part, in the table of a header or in an inline table. -/
def addKey? (path : List String) (name : String) (v : Toml) : Making → Members → Option Members :=
  update? .keyed
    (fun self ms => if path ≠ [] ∧ self ≠ .keyed then none else ms.add? name (.value v)) path

end Members

mutual

def Node.toToml : Node → Toml
  | .value v => v
  | .table _ members => .table (membersToToml members)
  | .tables reversed => .array (tablesToToml reversed).reverse

def membersToToml : List (String × Node) → List (String × Toml)
  | [] => []
  | (name, node) :: r => (name, node.toToml) :: membersToToml r

/-- The tables of an array that are known in the end. -/
def tablesToToml : List (List (String × Node)) → List Toml
  | [] => []
  | ms :: r => .table (membersToToml ms) :: tablesToToml r

end

end EngineBench.Toml

/-!
# Ordered tables

A table keeps its entries in the order in which they were written and keeps repeated keys, so
that a reader of the table can still see what its author wrote twice. Looking up a key finds its
first entry.
-/

namespace TapeMachine

/-- Entries in authoring order; a key may occur more than once. -/
abbrev Table (α : Type) := List (String × α)

namespace Table

variable {α : Type}

/-- The value of the first entry under a key. -/
def get? (table : Table α) (key : String) : Option α :=
  (table.find? fun entry => entry.1 == key).map (·.2)

/-- Append an entry, even if its key is already present. -/
def push (table : Table α) (key : String) (value : α) : Table α :=
  table ++ [(key, value)]

/-- Change the first value under a key; a key without entry is appended with `update` of the
`fallback`. -/
def upsert (table : Table α) (key : String) (fallback : α) (update : α → α) : Table α :=
  match table with
  | [] => [(key, update fallback)]
  | (present, value) :: rest =>
    if present = key then (present, update value) :: rest
    else (present, value) :: upsert rest key fallback update

/-- The keys of all entries, in order. -/
def keys (table : Table α) : List String :=
  table.map (·.1)

end Table

end TapeMachine

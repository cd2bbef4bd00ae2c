/-!
# Maps from names

A map from names is the list of its entries in increasing order of the names, by code points, with
one entry for each name.

* `NameMap.insert`: the map with one entry added or replaced.
* `NameMap.find?`: the entry of a name.
* `NameMap.ofList`: the map of a list of entries, where the last entry of a name wins.
-/

namespace DomainForms

/-- A map from names: entries in increasing order of the names. -/
abbrev NameMap (α : Type) := List (String × α)

namespace NameMap

variable {α : Type}

/-- The map with one entry added, or replaced where the name has one already. -/
def insert (key : String) (value : α) : NameMap α → NameMap α
  | [] => [(key, value)]
  | (first, held) :: rest =>
    if key < first then (key, value) :: (first, held) :: rest
    else if key = first then (key, value) :: rest
    else (first, held) :: insert key value rest

/-- What a map holds for a name. -/
def find? (key : String) : NameMap α → Option α
  | [] => none
  | (first, held) :: rest => if first = key then some held else find? key rest

/-- The map of a list of entries, where the last entry of a name wins. -/
def ofList (entries : List (String × α)) : NameMap α :=
  entries.foldl (fun map (key, value) => insert key value map) []

end NameMap

end DomainForms

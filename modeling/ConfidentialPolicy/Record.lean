import ConfidentialPolicy.Json.Written

namespace ConfidentialPolicy

/-- The fields of a structure, each with its value if it is given. -/
abbrev Record (α : Type) := List (Option α)

namespace Record

variable {α : Type}

def ofMembers? (names : List String) (ms : KeyMap α) : Option (Record α) :=
  if names.all fun name ↦ (ms.filter (·.1 = name)).length ≤ 1 then
    some (names.map (KeyMap.get? ms))
  else none

def ofItems? (names : List String) (vs : List α) : Option (Record α) :=
  if vs.length ≤ names.length then some ((List.range names.length).map (vs[·]?)) else none

/-- A structure is an object with its field names as keys, or a list of its fields in order, of
which the last ones may be left out. -/
def ofWritten? (names : List String) : Written → Option (Record Written)
  | .arr vs => ofItems? names vs
  | v => v.members?.bind (ofMembers? names)

def field? (r : Record α) (i : Nat) {β : Type} (view : α → Option β) : Option β :=
  (r[i]?.bind id).bind view

def fieldOr? (r : Record α) (i : Nat) {β : Type} (default : β) (view : α → Option β) : Option β :=
  match r[i]?.bind id with
  | none => some default
  | some v => view v

end Record

end ConfidentialPolicy

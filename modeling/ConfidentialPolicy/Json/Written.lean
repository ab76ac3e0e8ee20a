import ConfidentialPolicy.Json.Basic

namespace ConfidentialPolicy

inductive Written where
  | null
  | bool (b : Bool)
  /-- A numeral, with its number unless that is too large. -/
  | num (n : Option Number)
  /-- A string, with its text unless half of a surrogate pair is in it. -/
  | str (s : Option String)
  | arr (items : List Written)
  | obj (members : List (Option String × Written))
deriving Repr, Inhabited

namespace Written

mutual

def value? : Written → Option Json
  | .null => some .null
  | .bool b => some (.bool b)
  | .num n => n.map .num
  | .str s => s.map .str
  | .arr vs => (itemValues? vs).map .arr
  | .obj ms => (memberValues? ms).map .obj
termination_by structural v => v

def itemValues? : List Written → Option (List Json)
  | [] => some []
  | v :: vs => match value? v, itemValues? vs with
    | some w, some ws => some (w :: ws)
    | _, _ => none
termination_by structural vs => vs

def memberValues? : List (Option String × Written) → Option (List (String × Json))
  | [] => some []
  | (key, v) :: ms => match key, value? v, memberValues? ms with
    | some k, some w, some ns => some ((k, w) :: ns)
    | _, _, _ => none
termination_by structural ms => ms

end

def str? : Written → Option String
  | .str s => s
  | _ => none

def bool? : Written → Option Bool
  | .bool b => some b
  | _ => none

def items? : Written → Option (List Written)
  | .arr vs => some vs
  | _ => none

def members? : Written → Option (KeyMap Written)
  | .obj ms => ms.mapM fun m ↦ m.1.map (·, m.2)
  | _ => none

def strings? (v : Written) : Option (List String) := v.items?.bind (·.mapM str?)

/-- The members of an object whose values have one type; of several with one key the last stays. -/
def mapOf? {α : Type} (view : Written → Option α) (v : Written) : Option (KeyMap α) := do
  let entries ← (← v.members?).mapM fun m ↦ (view m.2).map (m.1, ·)
  some (KeyMap.ofList entries)

end Written

end ConfidentialPolicy

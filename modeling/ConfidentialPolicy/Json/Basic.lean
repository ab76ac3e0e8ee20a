import ConfidentialPolicy.Json.Binary64
import ConfidentialPolicy.KeyMap
import ConfidentialPolicy.Text.Digits

namespace ConfidentialPolicy

/-- A number is an integer or a floating-point number; the two kinds never denote the same value. -/
inductive Number where
  | int (value : Int)
  | float (value : Binary64)
deriving DecidableEq, Repr, Inhabited

def Number.same : Number → Number → Bool
  | .int m, .int n => m == n
  | .float x, .float y => x.same y
  | _, _ => false

inductive Json where
  | null
  | bool (b : Bool)
  | num (n : Number)
  | str (s : String)
  | arr (items : List Json)
  | obj (members : List (String × Json))
deriving Repr, Inhabited

namespace Json

mutual

def decEq : (v w : Json) → Decidable (v = w)
  | .null, .null => isTrue rfl
  | .bool a, .bool b => if h : a = b then isTrue (h ▸ rfl) else isFalse (by simp [h])
  | .num a, .num b => if h : a = b then isTrue (h ▸ rfl) else isFalse (by simp [h])
  | .str a, .str b => if h : a = b then isTrue (h ▸ rfl) else isFalse (by simp [h])
  | .arr a, .arr b => match decEqItems a b with
    | isTrue h => isTrue (h ▸ rfl)
    | isFalse h => isFalse (by simp [h])
  | .obj a, .obj b => match decEqMembers a b with
    | isTrue h => isTrue (h ▸ rfl)
    | isFalse h => isFalse (by simp [h])
  | .null, .bool _ | .null, .num _ | .null, .str _ | .null, .arr _ | .null, .obj _
  | .bool _, .null | .bool _, .num _ | .bool _, .str _ | .bool _, .arr _ | .bool _, .obj _
  | .num _, .null | .num _, .bool _ | .num _, .str _ | .num _, .arr _ | .num _, .obj _
  | .str _, .null | .str _, .bool _ | .str _, .num _ | .str _, .arr _ | .str _, .obj _
  | .arr _, .null | .arr _, .bool _ | .arr _, .num _ | .arr _, .str _ | .arr _, .obj _
  | .obj _, .null | .obj _, .bool _ | .obj _, .num _ | .obj _, .str _ | .obj _, .arr _ =>
    isFalse (by simp)
termination_by structural v => v

def decEqItems : (vs ws : List Json) → Decidable (vs = ws)
  | [], [] => isTrue rfl
  | v :: vs, w :: ws => match decEq v w, decEqItems vs ws with
    | isTrue h, isTrue h' => isTrue (h ▸ h' ▸ rfl)
    | isFalse h, _ => isFalse (by simp [h])
    | _, isFalse h => isFalse (by simp [h])
  | [], _ :: _ | _ :: _, [] => isFalse (by simp)
termination_by structural vs => vs

def decEqMembers : (ms ns : List (String × Json)) → Decidable (ms = ns)
  | [], [] => isTrue rfl
  | (k, v) :: ms, (l, w) :: ns =>
    if hk : k = l then match decEq v w, decEqMembers ms ns with
      | isTrue h, isTrue h' => isTrue (hk ▸ h ▸ h' ▸ rfl)
      | isFalse h, _ => isFalse (by simp [h])
      | _, isFalse h => isFalse (by simp [h])
    else isFalse (by simp [hk])
  | [], _ :: _ | _ :: _, [] => isFalse (by simp)
termination_by structural ms => ms

end

instance : DecidableEq Json := decEq

abbrev Members := KeyMap Json

mutual

/-- The same value with every object's members sorted by key. -/
def canonicalize : Json → Json
  | .arr items => .arr (canonicalizeItems items)
  | .obj ms => .obj (KeyMap.ofList (canonicalizeMembers ms))
  | .null => .null
  | .bool b => .bool b
  | .num n => .num n
  | .str s => .str s
termination_by structural v => v

def canonicalizeItems : List Json → List Json
  | [] => []
  | v :: vs => canonicalize v :: canonicalizeItems vs
termination_by structural vs => vs

def canonicalizeMembers : List (String × Json) → List (String × Json)
  | [] => []
  | (k, v) :: ms => (k, canonicalize v) :: canonicalizeMembers ms
termination_by structural ms => ms

end

def object (ms : List (String × Json)) : Json := .obj (KeyMap.ofList ms)

def ofNat (n : Nat) : Json := .num (.int n)

def ofInt (n : Int) : Json := .num (.int n)

def ofStrings (ss : List String) : Json := .arr (ss.map .str)

def get? : Json → String → Option Json
  | .obj ms, key => KeyMap.get? ms key
  | _, _ => none

def erase : Json → String → Json
  | .obj ms, key => .obj (KeyMap.erase ms key)
  | v, _ => v

def str? : Json → Option String
  | .str s => some s
  | _ => none

def bool? : Json → Option Bool
  | .bool b => some b
  | _ => none

def items? : Json → Option (List Json)
  | .arr vs => some vs
  | _ => none

def members? : Json → Option Members
  | .obj ms => some ms
  | _ => none

def minInt64 : Int := -9223372036854775808

def maxInt64 : Int := 9223372036854775807

def int64? : Json → Option Int
  | .num (.int n) => if minInt64 ≤ n ∧ n ≤ maxInt64 then some n else none
  | _ => none

def word? : Json → Option UInt64
  | .num (.int n) => if 0 ≤ n then Text.word? n.toNat else none
  | _ => none

def isNull : Json → Bool
  | .null => true
  | _ => false

def strings? (v : Json) : Option (List String) := v.items?.bind (·.mapM str?)

@[simp] theorem canonicalizeItems_eq_map (vs : List Json) :
    canonicalizeItems vs = vs.map canonicalize := by
  induction vs with
  | nil => rfl
  | cons v vs ih => simp [canonicalizeItems, ih]

@[simp] theorem canonicalizeMembers_eq_map (ms : List (String × Json)) :
    canonicalizeMembers ms = ms.map (fun m ↦ (m.1, canonicalize m.2)) := by
  induction ms with
  | nil => rfl
  | cons m ms ih => simp [canonicalizeMembers, ih]

end Json

end ConfidentialPolicy

import ConfidentialPolicy.Error
import ConfidentialPolicy.Text.Blank
import ConfidentialPolicy.Text.Search

namespace ConfidentialPolicy.PolicyText

def containersMarker : String := "containers := "

def fragmentsMarker : String := "fragments := "

/-- A place in a list: how many brackets are open, whether it lies in a string literal, and whether
it follows a backslash there. -/
inductive Nesting where
  | code (depth : Nat)
  | literal (depth : Nat)
  | escaped (depth : Nat)
deriving DecidableEq, Repr

namespace Nesting

def depth : Nesting → Nat
  | .code d | .literal d | .escaped d => d

def step : Nesting → Char → Nesting
  | .code d, c =>
    if c = '[' then .code (d + 1)
    else if c = ']' then .code (d - 1)
    else if c = '"' then .literal d
    else .code d
  | .literal d, c => if c = '\\' then .escaped d else if c = '"' then .code d else .literal d
  | .escaped d, _ => .literal d

def run (n : Nesting) (s : List Char) : Nesting := s.foldl step n

def isClosed : Nesting → Bool
  | .code 0 => true
  | _ => false

theorem run_cons (n : Nesting) (c : Char) (s : List Char) : n.run (c :: s) = (n.step c).run s := rfl

end Nesting

def closingLength? (n : Nesting) (read : Nat) : List Char → Option Nat
  | [] => none
  | c :: s =>
    if (n.step c).isClosed then some (read + 1) else closingLength? (n.step c) (read + 1) s

/-- The list starts at the first character that is no blank, and ends where the brackets outside of
string literals balance. -/
def balancedList (marker : String) (rest : List Char) : Checked (List Char) :=
  let shown := String.ofList (Text.trim marker.toList)
  match Text.trimStart rest with
  | [] => .error (.unbalanced shown)
  | c :: body =>
    if c = '[' then match closingLength? (.code 1) 1 body with
      | some n => .ok ((c :: body).take n)
      | none => .error (.unbalanced shown)
    else .error (.notAList shown c)

def extractList (text : List Char) (marker : String) : Checked (List Char) :=
  match Text.afterFirst? marker.toList text with
  | none => .error (.noMarker (String.ofList (Text.trim marker.toList)))
  | some rest => balancedList marker rest

end ConfidentialPolicy.PolicyText

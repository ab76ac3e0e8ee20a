import ConfidentialPolicy.Text.Search

namespace ConfidentialPolicy.CommandLine

structure OptionRule where
  name : String
  letter : Option Char := none
  takesValue : Bool := true
deriving DecidableEq, Repr

inductive Word where
  | plain
  | separator
  | long (name : String) (attached : Option String)
  | short (letter : Char) (attached : Option String)
deriving DecidableEq, Repr

namespace Word

def afterLetter : List Char → Option String
  | [] => none
  | '=' :: s => some (String.ofList s)
  | s => some (String.ofList s)

def ofString (w : String) : Word :=
  match w.toList with
  | ['-', '-'] => .separator
  | '-' :: '-' :: s =>
    .long (String.ofList (Text.splitFirst '=' s).1) ((Text.splitFirst '=' s).2.map String.ofList)
  | '-' :: c :: s => .short c (afterLetter s)
  | _ => .plain

def rule? (rules : List OptionRule) : Word → Option (OptionRule × Option String)
  | .long name attached => (rules.find? (·.name == name)).map (·, attached)
  | .short letter attached => (rules.find? (·.letter == some letter)).map (·, attached)
  | _ => none

end Word

abbrev Given := List (String × Option String)

namespace Given

/-- Reads options up to the first plain word; gives the options and the words that are left. -/
def read? (rules : List OptionRule) : List String → Option (Given × List String)
  | [] => some ([], [])
  | w :: ws =>
    match Word.ofString w with
    | .plain => some ([], w :: ws)
    | .separator => if ws = [] then some ([], []) else none
    | option => match option.rule? rules with
      | none => none
      | some (⟨name, _, false⟩, none) => (read? rules ws).map fun r ↦ ((name, none) :: r.1, r.2)
      | some (⟨_, _, false⟩, some _) => none
      | some (⟨name, _, true⟩, some v) =>
        (read? rules ws).map fun r ↦ ((name, some v) :: r.1, r.2)
      | some (⟨name, _, true⟩, none) => match ws with
        | [] => none
        | v :: ws =>
          if Word.ofString v = .plain then
            (read? rules ws).map fun r ↦ ((name, some v) :: r.1, r.2)
          else none

def has (g : Given) (name : String) : Bool := g.any (·.1 == name)

def value? (g : Given) (name : String) : Option String := (g.lookup name).join

def Distinct (g : Given) : Prop := (g.map (·.1)).Nodup

instance (g : Given) : Decidable g.Distinct := inferInstanceAs (Decidable (List.Nodup _))

def required (g : Given) (name : String) {α : Type} (view : String → Option α) : Option α :=
  (g.value? name).bind view

def optional (g : Given) (name : String) {α : Type} (view : String → Option α) :
    Option (Option α) :=
  match g.value? name with
  | none => some none
  | some s => (view s).map some

end Given

end ConfidentialPolicy.CommandLine

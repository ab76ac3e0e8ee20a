import ConfidentialPolicy.Text.Search

namespace ConfidentialPolicy.Path

def names (path : String) : List String :=
  ((Text.pieces '/' path.toList).filter (· ≠ [])).map String.ofList

def maxName : Nat := 255

def maxPath : Nat := 4095

def hasZero (s : String) : Bool := '\x00' ∈ s.toList

def isAbsolute (path : String) : Bool := path.toList.head? = some '/'

def endsInSlash (path : String) : Bool := path.toList.getLast? = some '/'

def fileName (path : String) : String :=
  String.ofList (path.toList.reverse.takeWhile (· ≠ '/')).reverse

def beforeName (path : String) : String :=
  String.ofList (path.toList.reverse.dropWhile (· ≠ '/')).reverse

def parent (path : String) : String :=
  if beforeName path = "" then ""
  else match (beforeName path).toList.reverse.dropWhile (· = '/') with
    | [] => "/"
    | s => String.ofList s.reverse

def join (directory path : String) : String :=
  if isAbsolute path || directory = "" then path
  else if endsInSlash directory then directory ++ path
  else directory ++ "/" ++ path

/-- A name without its extension; a dot at the start begins no extension. -/
def stem (name : List Char) : List Char :=
  match name.reverse.dropWhile (· ≠ '.') with
  | [] | ['.'] => name
  | _ :: s => s.reverse

def withExtension (path extension : String) : String :=
  beforeName path ++ String.ofList (stem (fileName path).toList) ++ "." ++ extension

end ConfidentialPolicy.Path

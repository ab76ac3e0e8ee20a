import ConfidentialPolicy.Text.Blank
import ConfidentialPolicy.Text.Digits
import ConfidentialPolicy.Text.Search

namespace ConfidentialPolicy.PolicyText

open Text

/-- The digits of a version declaration that starts here, after blanks: `svn`, `:=`, an optional
quote, and at least one digit. -/
def svnDigits? (s : List Char) : Option (List Char) := do
  let s ← ['s', 'v', 'n'].isPrefixOf? (trimStart s)
  let s ← [':', '='].isPrefixOf? (trimStart s)
  let s := trimStart s
  let digits := ((['"'].isPrefixOf? s).getD s).takeWhile isDigit
  if digits = [] then none else some digits

def firstSvn? (atLineStart : Bool) : List Char → Option (List Char)
  | [] => none
  | c :: s => match if atLineStart then svnDigits? (c :: s) else none with
    | some digits => some digits
    | none => firstSvn? (c = '\n') s

/-- The version that a fragment declares; none if the first declared one is too large. -/
def svn? (text : String) : Option UInt64 := (firstSvn? true text.toList).bind wordOfDigits?

def packageOf? (line : List Char) : Option (List Char) :=
  ("package ".toList.isPrefixOf? (trim line)).map trim

def namespace? (text : String) : Option String :=
  ((lines text.toList).findSome? packageOf?).map String.ofList

end ConfidentialPolicy.PolicyText

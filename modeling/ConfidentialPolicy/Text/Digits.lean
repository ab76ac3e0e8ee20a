namespace ConfidentialPolicy.Text

def maxWord : Nat := Nat.pow 2 64 - 1

def isDigit (c : Char) : Bool := '0' ≤ c && c ≤ '9'

def digitValue (c : Char) : Nat := c.toNat - '0'.toNat

def natOf (digits : List Char) : Nat := digits.foldl (fun n c ↦ 10 * n + digitValue c) 0

def word? (n : Nat) : Option UInt64 := if n ≤ maxWord then some n.toUInt64 else none

/-- The word that decimal digits denote; too large a number denotes no word. -/
def wordOfDigits? (digits : List Char) : Option UInt64 :=
  if digits ≠ [] ∧ digits.all isDigit then word? (natOf digits) else none

def wordOf? : List Char → Option UInt64
  | '+' :: s => wordOfDigits? s
  | s => wordOfDigits? s

def decimal (n : Nat) : String := String.ofList (Nat.toDigits 10 n)

def hexValue? (c : Char) : Option Nat :=
  if isDigit c then some (digitValue c)
  else if 'a' ≤ c ∧ c ≤ 'f' then some (c.toNat - 'a'.toNat + 10)
  else if 'A' ≤ c ∧ c ≤ 'F' then some (c.toNat - 'A'.toNat + 10)
  else none

end ConfidentialPolicy.Text

import ConfidentialPolicy.Json.Basic

namespace ConfidentialPolicy.Json

inductive Style where
  | compact
  | pretty
deriving DecidableEq, Repr

def hexDigit (n : Nat) : Char := if n < 10 then Char.ofNat (48 + n) else Char.ofNat (87 + n)

/-- The text of a character inside quotes; quotes, backslashes and control characters are
escaped. -/
def escape (c : Char) : List Char :=
  if c = '"' then ['\\', '"']
  else if c = '\\' then ['\\', '\\']
  else if c = '\x08' then ['\\', 'b']
  else if c = '\t' then ['\\', 't']
  else if c = '\n' then ['\\', 'n']
  else if c = '\x0c' then ['\\', 'f']
  else if c = '\r' then ['\\', 'r']
  else if c.toNat < 0x20 then
    ['\\', 'u', '0', '0', hexDigit (c.toNat / 16), hexDigit (c.toNat % 16)]
  else [c]

def quoted (s : String) : List Char := '"' :: (s.toList.flatMap escape ++ ['"'])

def intText (n : Int) : List Char :=
  if n < 0 then '-' :: Nat.toDigits 10 n.natAbs else Nat.toDigits 10 n.natAbs

def numberText : Number → List Char
  | .int n => intText n
  | .float x => x.text

def Style.gap : Style → Nat → List Char
  | .compact, _ => []
  | .pretty, depth => '\n' :: List.replicate (2 * depth) ' '

def Style.colon : Style → List Char
  | .compact => [':']
  | .pretty => [':', ' ']

mutual

def write (style : Style) (depth : Nat) : Json → List Char
  | .null => ['n', 'u', 'l', 'l']
  | .bool true => ['t', 'r', 'u', 'e']
  | .bool false => ['f', 'a', 'l', 's', 'e']
  | .num n => numberText n
  | .str s => quoted s
  | .arr [] => ['[', ']']
  | .arr (v :: vs) =>
    '[' :: (style.gap (depth + 1) ++ (write style (depth + 1) v ++
      (writeItems style (depth + 1) vs ++ (style.gap depth ++ [']']))))
  | .obj [] => ['{', '}']
  | .obj ((k, v) :: ms) =>
    '{' :: (style.gap (depth + 1) ++ (quoted k ++ (style.colon ++ (write style (depth + 1) v ++
      (writeMembers style (depth + 1) ms ++ (style.gap depth ++ ['}']))))))
termination_by structural v => v

def writeItems (style : Style) (depth : Nat) : List Json → List Char
  | [] => []
  | v :: vs => ',' :: (style.gap depth ++ (write style depth v ++ writeItems style depth vs))
termination_by structural vs => vs

def writeMembers (style : Style) (depth : Nat) : List (String × Json) → List Char
  | [] => []
  | (k, v) :: ms =>
    ',' :: (style.gap depth ++ (quoted k ++ (style.colon ++
      (write style depth v ++ writeMembers style depth ms))))
termination_by structural ms => ms

end

def text (v : Json) (style : Style) : String := String.ofList (write style 0 v)

def render (v : Json) (style : Style) : String := v.canonicalize.text style

def compact (v : Json) : String := v.render .compact

def pretty (v : Json) : String := v.render .pretty

end ConfidentialPolicy.Json

namespace ConfidentialPolicy.Text.Base64

def char (n : Nat) : Char :=
  if n < 26 then Char.ofNat (65 + n)
  else if n < 52 then Char.ofNat (71 + n)
  else if n < 62 then Char.ofNat (n - 4)
  else if n = 62 then '+'
  else '/'

def value? (c : Char) : Option Nat :=
  if 'A' ≤ c ∧ c ≤ 'Z' then some (c.toNat - 65)
  else if 'a' ≤ c ∧ c ≤ 'z' then some (c.toNat - 71)
  else if '0' ≤ c ∧ c ≤ '9' then some (c.toNat + 4)
  else if c = '+' then some 62
  else if c = '/' then some 63
  else none

def encode : List UInt8 → List Char
  | [] => []
  | [a] => [char (a.toNat / 4), char (a.toNat % 4 * 16), '=', '=']
  | [a, b] =>
    [char (a.toNat / 4), char (a.toNat % 4 * 16 + b.toNat / 16), char (b.toNat % 16 * 4), '=']
  | a :: b :: c :: rest =>
    char (a.toNat / 4) :: char (a.toNat % 4 * 16 + b.toNat / 16) ::
      char (b.toNat % 16 * 4 + c.toNat / 64) :: char (c.toNat % 64) :: encode rest

def decodeLast? (a b c d : Char) : Option (List UInt8) := do
  let m ← value? a
  let n ← value? b
  let first := (m * 4 + n / 16).toUInt8
  if c = '=' then
    if d = '=' ∧ n % 16 = 0 then some [first] else none
  else do
    let k ← value? c
    let second := (n % 16 * 16 + k / 4).toUInt8
    if d = '=' then
      if k % 4 = 0 then some [first, second] else none
    else do
      let l ← value? d
      some [first, second, (k % 4 * 64 + l).toUInt8]

def decodeGroup? (a b c d : Char) : Option (List UInt8) :=
  if c = '=' ∨ d = '=' then none else decodeLast? a b c d

def decode? : List Char → Option (List UInt8)
  | [] => some []
  | [a, b, c, d] => decodeLast? a b c d
  | a :: b :: c :: d :: rest => do
    let group ← decodeGroup? a b c d
    let others ← decode? rest
    some (group ++ others)
  | _ => none

end ConfidentialPolicy.Text.Base64

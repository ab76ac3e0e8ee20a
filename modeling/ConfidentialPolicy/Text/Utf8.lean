namespace ConfidentialPolicy.Text.Utf8

def encodeChar (c : Char) : List UInt8 :=
  let n := c.toNat
  if n < 0x80 then [n.toUInt8]
  else if n < 0x800 then [(0xC0 + n / 0x40).toUInt8, (0x80 + n % 0x40).toUInt8]
  else if n < 0x10000 then
    [(0xE0 + n / 0x1000).toUInt8, (0x80 + n / 0x40 % 0x40).toUInt8, (0x80 + n % 0x40).toUInt8]
  else
    [(0xF0 + n / 0x40000).toUInt8, (0x80 + n / 0x1000 % 0x40).toUInt8,
      (0x80 + n / 0x40 % 0x40).toUInt8, (0x80 + n % 0x40).toUInt8]

def encode (s : List Char) : List UInt8 := s.flatMap encodeChar

def isContinuation (b : UInt8) : Bool := 0x80 ≤ b && b < 0xC0

def extend (n : Nat) (b : UInt8) : Nat := n * 0x40 + (b.toNat - 0x80)

/-- The character with a number, if it has no shorter encoding than the one just read. -/
def char? (least n : Nat) : Option Char :=
  if least ≤ n ∧ n.isValidChar then some (Char.ofNat n) else none

/-- Where the decoder is: the characters read so far in reverse order, and how many continuation
octets of the current character are missing, its number so far and its least number. -/
structure Decoder where
  done : List Char
  missing : Nat
  number : Nat
  least : Nat
deriving DecidableEq, Repr

namespace Decoder

def start : Decoder := ⟨[], 0, 0, 0⟩

def step (d : Decoder) (b : UInt8) : Option Decoder :=
  if d.missing = 0 then
    if b < 0x80 then some { d with done := Char.ofNat b.toNat :: d.done }
    else if b < 0xC0 then none
    else if b < 0xE0 then some { d with missing := 1, number := b.toNat - 0xC0, least := 0x80 }
    else if b < 0xF0 then some { d with missing := 2, number := b.toNat - 0xE0, least := 0x800 }
    else if b < 0xF8 then some { d with missing := 3, number := b.toNat - 0xF0, least := 0x10000 }
    else none
  else if !isContinuation b then none
  else
    let n := extend d.number b
    if d.missing = 1 then (char? d.least n).map fun c ↦ { d with done := c :: d.done, missing := 0 }
    else some { d with missing := d.missing - 1, number := n }

def run (d : Decoder) (bs : List UInt8) : Option Decoder := bs.foldlM step d

theorem run_append (d : Decoder) (as bs : List UInt8) :
    d.run (as ++ bs) = (d.run as).bind (·.run bs) := by
  simp [run, List.foldlM_append]

end Decoder

/-- Sequences that no text encodes to are refused: stray octets, forms longer than needed,
surrogates, and numbers beyond the last code point. -/
def decode? (bs : List UInt8) : Option (List Char) := do
  let d ← Decoder.start.run bs
  if d.missing = 0 then some d.done.reverse else none

end ConfidentialPolicy.Text.Utf8

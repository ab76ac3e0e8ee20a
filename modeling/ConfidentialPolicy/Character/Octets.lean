import ConfidentialPolicy.Character.Set

namespace ConfidentialPolicy

abbrev OctetRange := Nat × Nat

abbrev OctetSequence := List OctetRange

namespace CodeRange

def continuation : OctetRange := (0x80, 0xBF)

/-- The sequences for the numbers from `a` to `b` written in `k` octets of six bits after a first
octet that counts from `lead`: those that share the first octet of `a`, those with all endings, and
those that share the first octet of `b`. -/
def sequences (lead : Nat) : Nat → Nat → Nat → List OctetSequence
  | 0, a, b => [[(lead + a, lead + b)]]
  | k + 1, a, b =>
    let size := Nat.pow 64 (k + 1)
    let (first, last) := (a / size, b / size)
    let below (n c d : Nat) : List OctetSequence :=
      (sequences 0x80 k c d).map ((lead + n, lead + n) :: ·)
    if first = last then below first (a % size) (b % size)
    else
      let start := if a % size = 0 then first else first + 1
      let stop := if b % size = size - 1 then last + 1 else last
      (if start = first then [] else below first (a % size) (size - 1)) ++
        (if start < stop then
          [(lead + start, lead + stop - 1) :: List.replicate (k + 1) continuation] else []) ++
        (if stop = last then below last 0 (b % size) else [])

/-- Code points whose encodings have one length: the first and the last, the number of octets after
the first one, and what the first octet counts from. -/
structure Block where
  first : Nat
  last : Nat
  rest : Nat
  lead : Nat

def blocks : List Block := [
  ⟨0, 0x7F, 0, 0⟩, ⟨0x80, 0x7FF, 1, 0xC0⟩, ⟨0x800, 0xD7FF, 2, 0xE0⟩, ⟨0xE000, 0xFFFF, 2, 0xE0⟩,
  ⟨0x10000, largest, 3, 0xF0⟩]

def octets (r : CodeRange) : List OctetSequence :=
  blocks.flatMap fun b ↦
    let (first, last) := (max r.first b.first, min r.last b.last)
    if first ≤ last then sequences b.lead b.rest first last else []

end CodeRange

def CharSet.octets (s : CharSet) : List OctetSequence := s.ranges.flatMap CodeRange.octets

def commonLength : OctetSequence → OctetSequence → Nat
  | r :: rs, t :: ts => if r = t then commonLength rs ts + 1 else 0
  | _, _ => 0

/-- The number of different starts of sequences, in which alike ones follow each other. -/
def trieSize (last : OctetSequence) : List OctetSequence → Nat
  | [] => 0
  | q :: qs => q.length - commonLength last q + trieSize q qs

/-- The nodes of an automaton without cycles, the latest first. A node lists octet ranges with the
numbers of the nodes that they lead to; it is numbered by its place from the end, and 0 is where
every sequence ends. -/
abbrev Automaton := List (List (OctetRange × Nat))

namespace Automaton

def number (m : Automaton) (node : List (OctetRange × Nat)) : Nat × Automaton :=
  match m.idxOf? node with
  | some i => (m.length - i, m)
  | none => (m.length + 1, node :: m)

def groups : List OctetSequence → List (OctetRange × List OctetSequence)
  | [] => []
  | [] :: qs => groups qs
  | (r :: q) :: qs => match groups qs with
    | (t, ts) :: gs => if r = t then (r, q :: ts) :: gs else (r, [q]) :: (t, ts) :: gs
    | [] => [(r, [q])]

def add : Nat → Automaton → List OctetSequence → Nat × Automaton
  | 0, m, _ => (0, m)
  | length + 1, m, qs => match groups qs with
    | [] => (0, m)
    | gs =>
      let (node, m) := gs.foldl (fun (node, m) g ↦
        let (n, m) := add length m g.2
        ((g.1, n) :: node, m)) ([], m)
      m.number node

def ofSequences (qs : List OctetSequence) : Automaton := (add 4 [] qs).2

end Automaton

end ConfidentialPolicy

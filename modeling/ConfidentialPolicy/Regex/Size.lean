import ConfidentialPolicy.Character.Octets
import ConfidentialPolicy.Regex.Basic

namespace ConfidentialPolicy.Regex

def sizeLimit : Nat := 10 * 1024 * 1024

def stateSize : Nat := 32

def choiceSize : Nat := 4

def rangeSize : Nat := 8

inductive Direction where
  | forwards
  | backwards
deriving DecidableEq, Repr

/-- The states for one character. Forwards the states are as few as can be, backwards only sequences
that start alike share states. -/
def setSize (d : Direction) (s : CharSet) : Nat :=
  match s.only? with
  | some _ => stateSize * ((s.octets.map List.length).foldl (· + ·) 0)
  | none =>
    if s.ranges = [] then stateSize
    else if s.isAscii then 2 * stateSize + rangeSize * s.ranges.length
    else match d with
      | .forwards =>
        (Automaton.ofSequences s.octets).foldl
          (fun n node ↦ n + stateSize + rangeSize * node.length) stateSize
      | .backwards =>
        2 * stateSize + choiceSize * s.octets.length + stateSize * trieSize [] s.octets

def onlyEmpty : Regex → Bool
  | .empty | .anchor _ => true
  | .one _ => false
  | .cat r s | .alt r s => onlyEmpty r && onlyEmpty s
  | .repeat r _ most => onlyEmpty r || most == some 0
  | .capture r => onlyEmpty r

def canBeEmpty : Regex → Bool
  | .empty | .anchor _ => true
  | .one _ => false
  | .cat r s => canBeEmpty r && canBeEmpty s
  | .alt r s => canBeEmpty r || canBeEmpty s
  | .repeat r least _ => least == 0 || canBeEmpty r
  | .capture r => canBeEmpty r

/-- The bounds of a repetition; repeating what is empty more than once changes nothing. -/
def bounds (r : Regex) (least : Nat) (most : Option Nat) : Nat × Option Nat :=
  if onlyEmpty r then (min least 1, some (min (most.getD 1) 1)) else (least, most)

def isVoid : Regex → Bool
  | .empty => true
  | .cat r s => isVoid r && isVoid s
  | .repeat r least most => match bounds r least most with
    | (_, some 0) => true
    | (1, some 1) => isVoid r
    | _ => false
  | _ => false

def choices : Regex → Nat
  | .alt r s => choices r + choices s
  | _ => 1

def alternatives? (single : Bool) : Regex → Option CharSet
  | .one s => if s.only?.isSome = single then some s else none
  | .alt r s => do some ((← alternatives? single r).union (← alternatives? single s))
  | _ => none

def repeatSize (n : Nat) (nullable : Bool) : Nat → Option Nat → Nat
  | _, some 0 => stateSize
  | 1, some 1 => n
  | 0, some 1 => n + 2 * stateSize + 2 * choiceSize
  | least, some most =>
    let needed := if least = 0 then stateSize else least * n
    if least = most then needed
    else needed + stateSize + (most - least) * (stateSize + 2 * choiceSize + n)
  | 0, none =>
    n + (stateSize + 2 * choiceSize) + if nullable then 2 * stateSize + 2 * choiceSize else 0
  | least, none => least * n + stateSize + 2 * choiceSize

/-- The states of an expression. An alternative of an expression is counted without the choice. -/
def size (d : Direction) (inChoice : Bool) : Regex → Nat
  | .empty | .anchor _ => stateSize
  | .one s => setSize d s
  | .cat r s =>
    if isVoid r then size d false s
    else if isVoid s then size d false r
    else size d false r + size d false s
  | .alt r s =>
    let sum := size d true r + size d true s
    if inChoice then sum
    else match (alternatives? true (.alt r s)).or (alternatives? false (.alt r s)) with
      | some set => setSize d set
      | none => sum + 2 * stateSize + choiceSize * choices (.alt r s)
  | .repeat r least most =>
    let (least, most) := bounds r least most
    repeatSize (size d false r) (canBeEmpty r) least most
  | .capture r => size d false r + match d with
    | .forwards => 2 * stateSize
    | .backwards => 0

def leads (a : Anchor) : Regex → Bool
  | .anchor b => a == b
  | .cat r s => leads a r || (onlyEmpty r && leads a s)
  | .alt r s => leads a r && leads a s
  | .repeat r least _ => least != 0 && leads a r
  | .capture r => leads a r
  | _ => false

def trails (a : Anchor) : Regex → Bool
  | .anchor b => a == b
  | .cat r s => trails a s || (onlyEmpty s && trails a r)
  | .alt r s => trails a r && trails a s
  | .repeat r least _ => least != 0 && trails a r
  | .capture r => trails a r
  | _ => false

/-- What an automaton takes that looks for matches everywhere, or at the one place where they can
be. -/
def searchSize (anchored : Bool) : Nat :=
  if anchored then stateSize else 3 * stateSize + 2 * rangeSize

def totalSize (r : Regex) : Direction → Nat
  | .forwards =>
    searchSize (leads .textStart r) + size .forwards false (.capture r) + stateSize
  | .backwards => searchSize (trails .textEnd r) + size .backwards false r + stateSize

def fits (r : Regex) : Bool :=
  totalSize r .forwards ≤ sizeLimit && totalSize r .backwards ≤ sizeLimit

end ConfidentialPolicy.Regex

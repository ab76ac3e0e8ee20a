import ConfidentialPolicy.Text.Digits

namespace ConfidentialPolicy.Yaml

open Text

inductive Tag where
  | bool
  | int
  | float
  | null
  | bare
  | own
  /-- Any other tag, which makes a scalar a string and says nothing of a collection. -/
  | other
deriving DecidableEq, Repr

inductive Token where
  | openList
  | closeList
  | openMap
  | closeMap
  | comma
  | colon
  | key
  | plain (s : List Char)
  | quoted (s : List Char)
  | anchor (name : List Char)
  | alias (name : List Char)
  | tag (t : Tag)
deriving DecidableEq, Repr

/-- The white space read since the last other character of a scalar. -/
structure Fold where
  blanks : List Char := []
  /-- The first line break; an escaped one leaves no character. -/
  broken : Option (Option Char) := none
  further : List Char := []
deriving DecidableEq, Repr

namespace Fold

/-- The white space that a scalar keeps: blanks within a line, a space for one line break, and all
but the first of several line breaks. -/
def text (f : Fold) : List Char :=
  match f.broken with
  | none => f.blanks.reverse
  | some (some '\n') => if f.further = [] then [' '] else f.further.reverse
  | some first => first.toList ++ f.further.reverse

def addBlank (f : Fold) (c : Char) : Fold :=
  if f.broken.isNone then { f with blanks := c :: f.blanks } else f

def addBreak (f : Fold) (c : Char) : Fold :=
  if f.broken.isNone then { f with blanks := [], broken := some (some c) }
  else { f with further := c :: f.further }

def isEmpty (f : Fold) : Bool := f.blanks.isEmpty && f.broken.isNone

end Fold

/-- What the lexer is inside of; characters of a scalar are in reverse order. -/
inductive Mode where
  | between
  | comment
  | plain (done : List Char) (fold : Fold)
  | double (done : List Char) (fold : Fold)
  | escapedBreak (done : List Char)
  | escape (done : List Char)
  | hex (done : List Char) (left value : Nat)
  | single (done : List Char) (fold : Fold)
  | singleQuote (done : List Char)
  | anchor (done : List Char)
  | alias (done : List Char)
  | tag (done : List Char)
  | wholeTag (done : List Char)
  | tagEnd (t : Tag)
deriving DecidableEq, Repr

structure Lexer where
  mode : Mode := .between
  tokens : List Token := []
  line : Nat := 0
  index : Nat := 0
  atLineStart : Bool := true
  /-- The line and index at which the current or last scalar starts, with its anchor and tag. -/
  mark : Nat × Nat := (0, 0)
  leads : Bool := false
deriving DecidableEq, Repr

namespace Lexer

def isBreak (c : Char) : Bool := c = '\n' || c = '\u2028' || c = '\u2029'

def isBlank (c : Char) : Bool := c = ' ' || c = '\t'

def isSpace (c : Char) : Bool := isBlank c || isBreak c

def endsWord (next : Option Char) : Bool := next.all isSpace

def isBracket (c : Char) : Bool := c = ',' || c = '[' || c = ']' || c = '{' || c = '}'

def isReserved (c : Char) : Bool := c = '|' || c = '>' || c = '%' || c = '@' || c = '\x60'

def isNameChar (c : Char) : Bool := c.isAlphanum || c = '_' || c = '-'

def endsName (c : Char) : Bool :=
  isSpace c || c = '?' || c = ':' || c = ',' || c = ']' || c = '}' || c = '%' || c = '@' ||
    c = '\x60'

def isTagChar (c : Char) : Bool :=
  isNameChar c || c ∈ [';', '/', '?', ':', '@', '&', '=', '+', '$', '.', '!', '~', '*', '\'', '(',
    ')']

def byteOrderMark : Char := '\ufeff'

def maxKeyLength : Nat := 1024

def atEntry (l : Lexer) : Bool :=
  match l.tokens with
  | .openList :: _ | .openMap :: _ | .comma :: _ => true
  | _ => false

def keyComplete (l : Lexer) : Bool :=
  l.leads && l.mark.1 == l.line && l.index ≤ l.mark.2 + maxKeyLength

def isPart : Token → Bool
  | .plain _ | .quoted _ | .anchor _ | .alias _ | .tag _ => true
  | _ => false

/-- Reads a colon, which marks what comes before it as a key if that can be one. -/
def colon (l : Lexer) : Lexer :=
  let (node, before) := l.tokens.span isPart
  if node ≠ [] ∧ l.keyComplete then { l with tokens := .colon :: (node ++ .key :: before) }
  else { l with tokens := .colon :: l.tokens }

def emit (l : Lexer) (t : Token) : Lexer := { l with mode := .between, tokens := t :: l.tokens }

def afterProperty (l : Lexer) : Bool :=
  match l.tokens with
  | .anchor _ :: _ | .tag _ :: _ => true
  | _ => false

/-- Begins a part of a node; the mark stays where the node begins. -/
def beginPart (l : Lexer) (mode : Mode) : Lexer :=
  if l.afterProperty then { l with mode }
  else { l with mode, mark := (l.line, l.index), leads := l.atEntry }

def begin? (l : Lexer) (c : Char) (next : Option Char) : Option Lexer :=
  if isSpace c ∨ (c = byteOrderMark ∧ l.atLineStart) then some l
  else if c = '#' then some { l with mode := .comment }
  else if c = '[' then some (l.emit .openList)
  else if c = ']' then some (l.emit .closeList)
  else if c = '{' then some (l.emit .openMap)
  else if c = '}' then some (l.emit .closeMap)
  else if c = ',' then some (l.emit .comma)
  else if c = ':' then some l.colon
  else if c = '?' then some (l.emit .key)
  else if c = '&' then some (l.beginPart (.anchor []))
  else if c = '*' then some (l.beginPart (.alias []))
  else if c = '!' then some (l.beginPart (.tag []))
  else if c = '"' then some (l.beginPart (.double [] {}))
  else if c = '\'' then some (l.beginPart (.single [] {}))
  else if isReserved c ∨ (c = '-' ∧ endsWord next) then none
  else some (l.beginPart (.plain [c] {}))

def standardTags : String := "tag:yaml.org,2002:"

def tagOf (s : List Char) : Tag :=
  match (standardTags.toList.isPrefixOf? s).map String.ofList with
  | some "bool" => .bool
  | some "int" => .int
  | some "float" => .float
  | some "null" => .null
  | _ => if s = ['!'] then .bare else if s.head? = some '!' then .own else .other

/-- What a tag says of which the first exclamation mark is left out. Two marks stand for the tags of
the standard; no other handle is known. -/
def shortTag? (s : List Char) : Option Tag :=
  match s.dropWhile isNameChar with
  | '!' :: rest =>
    if s.head? = some '!' ∧ rest ≠ [] then some (tagOf (standardTags.toList ++ rest)) else none
  | _ => some (tagOf ('!' :: s))

def endTag? (l : Lexer) (t : Tag) (c : Char) (next : Option Char) : Option Lexer :=
  if isSpace c ∨ c = ',' then (l.emit (.tag t)).begin? c next else none

def join (done : List Char) (fold : Fold) : List Char := fold.text.reverse ++ done

def unescape? (c : Char) : Option Char :=
  match c with
  | '0' => some '\x00'
  | 'a' => some '\x07'
  | 'b' => some '\x08'
  | 't' | '\t' => some '\t'
  | 'n' => some '\n'
  | 'v' => some '\x0b'
  | 'f' => some '\x0c'
  | 'r' => some '\r'
  | 'e' => some '\x1b'
  | ' ' => some ' '
  | '"' => some '"'
  | '/' => some '/'
  | '\\' => some '\\'
  | 'N' => some '\u0085'
  | '_' => some '\u00a0'
  | 'L' => some '\u2028'
  | 'P' => some '\u2029'
  | _ => none

def hexLength? (c : Char) : Option Nat :=
  match c with
  | 'x' => some 2
  | 'u' => some 4
  | 'U' => some 8
  | _ => none

def act? (l : Lexer) (c : Char) (next : Option Char) : Option Lexer :=
  match l.mode with
  | .between => l.begin? c next
  | .comment => if isBreak c then some { l with mode := .between } else some l
  | .plain done fold =>
    if isBlank c then some { l with mode := .plain done (fold.addBlank c) }
    else if isBreak c then some { l with mode := .plain done (fold.addBreak c) }
    else if c = ':' ∧ next.any (fun d ↦ isBracket d || d = '?') then none
    else if isBracket c ∨ (c = ':' ∧ endsWord next) ∨ (c = '#' ∧ !fold.isEmpty) then
      (l.emit (.plain done.reverse)).begin? c next
    else some { l with mode := .plain (c :: join done fold) {} }
  | .double done fold =>
    if c = '"' then some (l.emit (.quoted (join done fold).reverse))
    else if c = '\\' then
      let done := join done fold
      some { l with mode := if next.any isBreak then .escapedBreak done else .escape done }
    else if isBlank c then some { l with mode := .double done (fold.addBlank c) }
    else if isBreak c then some { l with mode := .double done (fold.addBreak c) }
    else some { l with mode := .double (c :: join done fold) {} }
  | .escapedBreak done => some { l with mode := .double done { broken := some none } }
  | .escape done => match hexLength? c with
    | some n => some { l with mode := .hex done n 0 }
    | none => (unescape? c).map fun d ↦ { l with mode := .double (d :: done) {} }
  | .hex done left value => do
    let n := 16 * value + (← hexValue? c)
    if left ≤ 1 then
      if n.isValidChar then some { l with mode := .double (Char.ofNat n :: done) {} } else none
    else some { l with mode := .hex done (left - 1) n }
  | .single done fold =>
    if c = '\'' then
      if next = some '\'' then some { l with mode := .singleQuote (join done fold) }
      else some (l.emit (.quoted (join done fold).reverse))
    else if isBlank c then some { l with mode := .single done (fold.addBlank c) }
    else if isBreak c then some { l with mode := .single done (fold.addBreak c) }
    else some { l with mode := .single (c :: join done fold) {} }
  | .singleQuote done => some { l with mode := .single ('\'' :: done) {} }
  | .anchor done =>
    if isNameChar c then some { l with mode := .anchor (c :: done) }
    else if done ≠ [] ∧ endsName c then (l.emit (.anchor done.reverse)).begin? c next
    else none
  | .alias done =>
    if isNameChar c then some { l with mode := .alias (c :: done) }
    else if done ≠ [] ∧ endsName c then (l.emit (.alias done.reverse)).begin? c next
    else none
  | .tag done =>
    if isTagChar c then some { l with mode := .tag (c :: done) }
    else if c = '<' ∧ done = [] then some { l with mode := .wholeTag [] }
    else do l.endTag? (← shortTag? done.reverse) c next
  | .wholeTag done =>
    if c = '>' ∧ done ≠ [] then some { l with mode := .tagEnd (tagOf done.reverse) }
    else if isTagChar c ∨ c = ',' ∨ c = '[' ∨ c = ']' then
      some { l with mode := .wholeTag (c :: done) }
    else none
  | .tagEnd t => l.endTag? t c next

def advance (l : Lexer) (c : Char) : Lexer :=
  { l with
    line := if isBreak c then l.line + 1 else l.line
    index := l.index + 1
    atLineStart := isBreak c }

def step? (l : Lexer) (c : Char) (next : Option Char) : Option Lexer :=
  (l.act? c next).map (·.advance c)

/-- Reads a text that `next` follows. -/
def run? (next : Option Char) : Lexer → List Char → Option Lexer
  | l, [] => some l
  | l, c :: s => match l.step? c (s.head?.or next) with
    | none => none
    | some l' => run? next l' s

def finish? (l : Lexer) : Option (List Token) :=
  match l.mode with
  | .between | .comment => some l.tokens.reverse
  | .plain done _ => some (.plain done.reverse :: l.tokens).reverse
  | _ => none

end Lexer

def isPrintable (c : Char) : Bool :=
  let n := c.toNat
  n == 9 || n == 10 || n == 13 || (0x20 ≤ n && n ≤ 0x7E) || n == 0x85 ||
    (0xA0 ≤ n && n ≤ 0xFFFD) || 0x10000 ≤ n

/-- Every line break as a line feed; the Unicode line and paragraph separators stay. -/
def normalizeBreaks : List Char → List Char
  | '\r' :: '\n' :: s => '\n' :: normalizeBreaks s
  | c :: s => (if c = '\r' ∨ c = '\u0085' then '\n' else c) :: normalizeBreaks s
  | [] => []

/-- Whether a line starts with the mark of a document's start or end, which no collection holds. -/
def hasDocumentMark (s : List Char) : Bool :=
  match s with
  | '-' :: '-' :: '-' :: t | '.' :: '.' :: '.' :: t => Lexer.endsWord t.head?
  | _ => false

def marksDocument : List Char → Bool
  | [] => false
  | c :: s => (Lexer.isBreak c && hasDocumentMark s) || marksDocument s

def tokens? (s : List Char) : Option (List Token) :=
  let s := normalizeBreaks s
  if s.all isPrintable ∧ !marksDocument s then (Lexer.run? none {} s).bind Lexer.finish? else none

end ConfidentialPolicy.Yaml

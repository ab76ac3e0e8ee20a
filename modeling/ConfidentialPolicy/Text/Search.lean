namespace ConfidentialPolicy.Text

def afterFirst? (word : List Char) : List Char → Option (List Char)
  | [] => if word = [] then some [] else none
  | c :: s => match word.isPrefixOf? (c :: s) with
    | some rest => some rest
    | none => afterFirst? word s

def occurs (word s : List Char) : Bool := (afterFirst? word s).isSome

/-- The pieces of a text between separators; there is at least one. -/
def pieces (sep : Char) : List Char → List (List Char)
  | [] => [[]]
  | c :: s => if c = sep then [] :: pieces sep s else match pieces sep s with
    | [] => [[c]]
    | p :: ps => (c :: p) :: ps

def lines (s : List Char) : List (List Char) := pieces '\n' s

def splitFirst (sep : Char) (s : List Char) : List Char × Option (List Char) :=
  (s.takeWhile (· != sep), match s.dropWhile (· != sep) with
    | [] => none
    | _ :: rest => some rest)

theorem pieces_ne_nil (sep : Char) (s : List Char) : pieces sep s ≠ [] := by
  cases s with
  | nil => simp [pieces]
  | cons c s =>
    simp only [pieces]
    split
    · simp
    · split <;> simp

end ConfidentialPolicy.Text

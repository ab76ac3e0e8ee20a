namespace ConfidentialPolicy

/-- Members with string keys, in order. -/
abbrev KeyMap (α : Type) := List (String × α)

namespace KeyMap

variable {α β : Type}

def get? (m : KeyMap α) (key : String) : Option α := m.lookup key

def keys (m : KeyMap α) : List String := m.map (·.1)

/-- Puts a member at its place in key order, replacing the value of the key if it is there. -/
def insert (key : String) (a : α) : KeyMap α → KeyMap α
  | [] => [(key, a)]
  | (k, b) :: m =>
    if key < k then (key, a) :: (k, b) :: m
    else if key = k then (k, a) :: m
    else (k, b) :: insert key a m

def erase (m : KeyMap α) (key : String) : KeyMap α := m.filter (·.1 ≠ key)

def update (key : String) (f : Option α → α) (m : KeyMap α) : KeyMap α :=
  insert key (f (get? m key)) m

/-- The members in key order; of several with one key the last stays. -/
def ofList (ms : List (String × α)) : KeyMap α := ms.foldl (fun m p ↦ insert p.1 p.2 m) []

def Sorted (m : KeyMap α) : Prop := m.Pairwise (·.1 < ·.1)

instance (m : KeyMap α) : Decidable (Sorted m) :=
  inferInstanceAs (Decidable (m.Pairwise (·.1 < ·.1)))

@[simp] theorem get?_nil (key : String) : get? ([] : KeyMap α) key = none := rfl

theorem get?_cons (k : String) (a : α) (m : KeyMap α) (key : String) :
    get? ((k, a) :: m) key = if key = k then some a else get? m key := by
  by_cases h : key = k
  · simp [get?, h]
  · simp [get?, List.lookup_cons, h, beq_eq_false_iff_ne.mpr h]

theorem get?_insert (key : String) (a : α) (m : KeyMap α) (k : String) :
    get? (insert key a m) k = if k = key then some a else get? m k := by
  induction m with
  | nil => simp [insert, get?_cons]
  | cons p m ih =>
    obtain ⟨l, b⟩ := p
    simp only [insert]
    split
    · simp [get?_cons]
    · split
      · next h => subst h; simp only [get?_cons]; split <;> simp_all
      · next h => simp only [get?_cons, ih]; split <;> split <;> simp_all

end KeyMap

end ConfidentialPolicy

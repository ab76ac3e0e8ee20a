import ConfidentialPolicy.Text.Digits
import ConfidentialPolicy.Text.Search

namespace ConfidentialPolicy

structure CodeRange where
  first : Nat
  last : Nat
  first_le_last : first ≤ last := by omega
deriving DecidableEq, Repr

namespace CodeRange

def contains (r : CodeRange) (n : Nat) : Bool := r.first ≤ n && n ≤ r.last

def touches (r s : CodeRange) : Bool := r.first ≤ s.last + 1 && s.first ≤ r.last + 1

def hull (r s : CodeRange) : CodeRange where
  first := min r.first s.first
  last := max r.last s.last
  first_le_last := by have := r.first_le_last; omega

/-- Adds a range to ranges in order, joining it with those that it touches. -/
def insert (r : CodeRange) : List CodeRange → List CodeRange
  | [] => [r]
  | s :: rest =>
    if r.touches s then insert (r.hull s) rest
    else if r.last < s.first then r :: s :: rest
    else s :: insert r rest

def largest : Nat := 0x10FFFF

def gaps (start : Nat) : List CodeRange → List CodeRange
  | [] => if h : start ≤ largest then [⟨start, largest, h⟩] else []
  | r :: rest =>
    if h : start < r.first then ⟨start, r.first - 1, by omega⟩ :: gaps (r.last + 1) rest
    else gaps (r.last + 1) rest

def Before (r s : CodeRange) : Prop := r.last + 1 < s.first

def anyContains (rs : List CodeRange) (n : Nat) : Bool := rs.any (·.contains n)

theorem anyContains_cons (r : CodeRange) (rs : List CodeRange) (n : Nat) :
    anyContains (r :: rs) n = (r.contains n || anyContains rs n) := rfl

theorem contains_hull {r s : CodeRange} (h : r.touches s = true) (n : Nat) :
    (r.hull s).contains n = (r.contains n || s.contains n) := by
  have := r.first_le_last
  have := s.first_le_last
  simp only [touches, Bool.and_eq_true, decide_eq_true_eq] at h
  rw [Bool.eq_iff_iff]
  simp only [contains, Bool.and_eq_true, Bool.or_eq_true, decide_eq_true_eq]
  simp only [hull]
  omega

theorem contains_insert (r : CodeRange) (rs : List CodeRange) (n : Nat) :
    anyContains (insert r rs) n = (r.contains n || anyContains rs n) := by
  induction rs generalizing r with
  | nil => rfl
  | cons s rest ih =>
    simp only [insert]
    split
    · next h => rw [ih, contains_hull h, anyContains_cons, Bool.or_assoc]
    · split
      · rfl
      · rw [anyContains_cons, ih, anyContains_cons, Bool.or_left_comm]

/-- A range added to ranges that start later starts first or joins the first of them. -/
theorem before_insert {q r : CodeRange} {rs : List CodeRange} (hr : q.Before r)
    (hs : ∀ s ∈ rs, q.Before s) : ∀ s ∈ insert r rs, q.Before s := by
  induction rs generalizing r with
  | nil => simpa [insert] using hr
  | cons t rest ih =>
    have ht := hs t (by simp)
    simp only [insert]
    split
    · refine ih ?_ fun s h ↦ hs s (by simp [h])
      simp only [Before, hull] at *
      omega
    · split
      · intro s h
        rcases List.mem_cons.1 h with rfl | h
        · exact hr
        · exact hs s h
      · intro s h
        rcases List.mem_cons.1 h with rfl | h
        · exact ht
        · exact ih hr (fun s h ↦ hs s (by simp [h])) s h

theorem ordered_insert {rs : List CodeRange} (h : rs.Pairwise Before) (r : CodeRange) :
    (insert r rs).Pairwise Before := by
  induction rs generalizing r with
  | nil => simp [insert]
  | cons s rest ih =>
    obtain ⟨hs, hrest⟩ := List.pairwise_cons.1 h
    simp only [insert]
    split
    · exact ih hrest _
    · next ht =>
      simp only [touches, Bool.and_eq_true, decide_eq_true_eq] at ht
      have := r.first_le_last
      have := s.first_le_last
      split
      · next hlt =>
        refine List.pairwise_cons.2 ⟨fun t h ↦ ?_, h⟩
        rcases List.mem_cons.1 h with rfl | h
        · simp only [Before]; omega
        · have := hs t h
          simp only [Before] at *
          omega
      · exact List.pairwise_cons.2
          ⟨before_insert (by simp only [Before]; omega) hs, ih hrest r⟩

theorem before_gaps {q : CodeRange} {start : Nat} (h : q.last + 1 < start)
    {rs : List CodeRange} (hs : rs.Pairwise Before) (hr : ∀ r ∈ rs, start ≤ r.first) :
    ∀ s ∈ gaps start rs, q.Before s := by
  induction rs generalizing start with
  | nil =>
    simp only [gaps]
    split <;> simp [Before, h]
  | cons r rest ih =>
    have := r.first_le_last
    have := hr r (by simp)
    obtain ⟨hb, hrest⟩ := List.pairwise_cons.1 hs
    have later := @ih (r.last + 1) (by omega) hrest fun t ht ↦ by
      have := hb t ht
      simp only [Before] at this
      omega
    simp only [gaps]
    split
    · intro s h
      rcases List.mem_cons.1 h with rfl | h
      · simpa [Before] using ‹q.last + 1 < start›
      · exact later s h
    · exact later

theorem ordered_gaps {start : Nat} {rs : List CodeRange} (hs : rs.Pairwise Before)
    (hr : ∀ r ∈ rs, start ≤ r.first) : (gaps start rs).Pairwise Before := by
  induction rs generalizing start with
  | nil => simp only [gaps]; split <;> simp
  | cons r rest ih =>
    have := r.first_le_last
    obtain ⟨hb, hrest⟩ := List.pairwise_cons.1 hs
    have hnext : ∀ t ∈ rest, r.last + 1 ≤ t.first := fun t ht ↦ Nat.le_of_lt (hb t ht)
    simp only [gaps]
    split
    · next h =>
      refine List.pairwise_cons.2 ⟨before_gaps ?_ hrest hnext, ih hrest hnext⟩
      simp only
      omega
    · exact ih hrest hnext

theorem contains_gaps {start : Nat} {rs : List CodeRange} (hs : rs.Pairwise Before)
    (hr : ∀ r ∈ rs, start ≤ r.first) {n : Nat} (hn : n ≤ largest) :
    anyContains (gaps start rs) n = (decide (start ≤ n) && !anyContains rs n) := by
  induction rs generalizing start with
  | nil =>
    simp only [gaps]
    split
    · simp [anyContains, contains, hn]
    · next h =>
      have : ¬ start ≤ n := by omega
      simp [anyContains, this]
  | cons r rest ih =>
    have := r.first_le_last
    have h0 := hr r (by simp)
    obtain ⟨hb, hrest⟩ := List.pairwise_cons.1 hs
    have hnext : ∀ t ∈ rest, r.last + 1 ≤ t.first := fun t ht ↦ Nat.le_of_lt (hb t ht)
    -- The ranges are in order, so that a code up to the end of the first one is in no later one.
    have hbelow : n ≤ r.last → anyContains rest n = false := by
      intro hle
      simp only [anyContains, List.any_eq_false, contains, Bool.and_eq_true, decide_eq_true_eq]
      intro t ht hc
      have := hnext t ht
      omega
    have hi := ih hrest hnext
    rw [Bool.eq_iff_iff] at hi ⊢
    simp only [gaps, anyContains_cons, Bool.and_eq_true, Bool.not_eq_true', Bool.or_eq_false_iff,
      decide_eq_true_eq] at hi ⊢
    split
    · rw [anyContains_cons, Bool.or_eq_true, hi]
      simp only [contains, Bool.and_eq_true, Bool.and_eq_false_iff, decide_eq_true_eq,
        decide_eq_false_iff_not]
      constructor
      · rintro (h | ⟨h, hf⟩)
        · exact ⟨h.1, by omega, hbelow (by omega)⟩
        · exact ⟨by omega, by omega, hf⟩
      · rintro ⟨h, hc, hf⟩
        by_cases hlt : n < r.first
        · exact .inl ⟨h, by omega⟩
        · exact .inr ⟨by omega, hf⟩
    · rw [hi]
      simp only [contains, Bool.and_eq_false_iff, decide_eq_false_iff_not]
      constructor
      · rintro ⟨h, hf⟩
        exact ⟨by omega, by omega, hf⟩
      · rintro ⟨h, hc, hf⟩
        exact ⟨by omega, hf⟩

end CodeRange

/-- Ranges in increasing order, none of which touches another. -/
structure CharSet where
  ranges : List CodeRange
  ordered : ranges.Pairwise CodeRange.Before
deriving DecidableEq, Repr

namespace CharSet

def empty : CharSet := ⟨[], .nil⟩

instance : Inhabited CharSet := ⟨empty⟩

def has (s : CharSet) (n : Nat) : Bool := CodeRange.anyContains s.ranges n

def contains (s : CharSet) (c : Char) : Bool := s.has c.toNat

def insert (s : CharSet) (r : CodeRange) : CharSet := ⟨_, CodeRange.ordered_insert s.ordered r⟩

def ofRanges (rs : List CodeRange) : CharSet := rs.foldr (fun r s ↦ s.insert r) empty

def range (first last : Nat) : CharSet :=
  if h : first ≤ last then empty.insert ⟨first, last, h⟩ else empty

def one (c : Char) : CharSet := range c.toNat c.toNat

def ofPairs (ps : List (Nat × Nat)) : CharSet :=
  ofRanges (ps.filterMap fun p ↦ if h : p.1 ≤ p.2 then some ⟨p.1, p.2, h⟩ else none)

def union (s t : CharSet) : CharSet := t.ranges.foldr (fun r u ↦ u.insert r) s

def compl (s : CharSet) : CharSet := ⟨_, CodeRange.ordered_gaps s.ordered fun _ _ ↦ Nat.zero_le _⟩

def inter (s t : CharSet) : CharSet := (s.compl.union t.compl).compl

def diff (s t : CharSet) : CharSet := (s.compl.union t).compl

def symmetricDiff (s t : CharSet) : CharSet := (s.diff t).union (t.diff s)

def all : CharSet := range 0 CodeRange.largest

def isAscii (s : CharSet) : Bool := s.ranges.all (·.last < 0x80)

def only? (s : CharSet) : Option Nat :=
  match s.ranges with
  | [r] => if r.first = r.last then some r.first else none
  | _ => none

theorem contains_insert (s : CharSet) (r : CodeRange) (c : Char) :
    (s.insert r).contains c = (r.contains c.toNat || s.contains c) :=
  CodeRange.contains_insert r s.ranges c.toNat

theorem contains_union (s t : CharSet) (c : Char) :
    (s.union t).contains c = (s.contains c || t.contains c) := by
  have h (rs : List CodeRange) : (rs.foldr (fun r u ↦ u.insert r) s).contains c =
      (s.contains c || CodeRange.anyContains rs c.toNat) := by
    induction rs with
    | nil => simp [CodeRange.anyContains]
    | cons r rs ih =>
      rw [List.foldr_cons, contains_insert, ih, CodeRange.anyContains_cons, Bool.or_left_comm]
  exact h t.ranges

theorem contains_compl (s : CharSet) (c : Char) : s.compl.contains c = !s.contains c := by
  have hc : c.toNat ≤ CodeRange.largest := by
    have := c.valid
    simp only [UInt32.isValidChar, Nat.isValidChar, CodeRange.largest, Char.toNat] at *
    omega
  have h := CodeRange.contains_gaps s.ordered (fun _ _ ↦ Nat.zero_le _) hc
  simpa [contains, has, compl] using h

theorem contains_inter (s t : CharSet) (c : Char) :
    (s.inter t).contains c = (s.contains c && t.contains c) := by
  simp [inter, contains_compl, contains_union]

theorem contains_diff (s t : CharSet) (c : Char) :
    (s.diff t).contains c = (s.contains c && !t.contains c) := by
  simp [diff, contains_compl, contains_union]

def hexOf (s : List Char) : Nat := s.foldl (fun n c ↦ 16 * n + (Text.hexValue? c).getD 0) 0

/-- The ranges of one word of a text: a code point as in `41`, a range as in `41-5A`, or every second
code point of a range as in `100-136/2`. -/
def rangesOfWord (word : List Char) : List (Nat × Nat) :=
  let (first, rest) := Text.splitFirst '-' word
  match rest.map (Text.splitFirst '/') with
  | none => [(hexOf first, hexOf first)]
  | some (last, none) => [(hexOf first, hexOf last)]
  | some (last, some _) =>
    (List.range ((hexOf last - hexOf first) / 2 + 1)).map fun i ↦
      (hexOf first + 2 * i, hexOf first + 2 * i)

def ofLines (lines : List String) : CharSet :=
  ofPairs (lines.flatMap fun l ↦ (Text.pieces ' ' l.toList).flatMap rangesOfWord)

end CharSet

end ConfidentialPolicy

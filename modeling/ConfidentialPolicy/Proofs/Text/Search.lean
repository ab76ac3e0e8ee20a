import ConfidentialPolicy.Text.Search
import Mathlib.Data.List.Basic

namespace ConfidentialPolicy.Text

variable {word s t : List Char} {c : Char}

theorem isPrefixOf?_append_self (word t : List Char) : word.isPrefixOf? (word ++ t) = some t :=
  List.isPrefixOf?_eq_some_iff_append_eq.mpr rfl

theorem afterFirst?_eq_none_of_cons (h : afterFirst? word (c :: s) = none) :
    word.isPrefixOf? (c :: s) = none ∧ afterFirst? word s = none := by
  simp only [afterFirst?] at h
  split at h
  · exact absurd h (by simp)
  · next hp => exact ⟨hp, h⟩

theorem afterFirst?_cons_of_none (h : word.isPrefixOf? (c :: s) = none) :
    afterFirst? word (c :: s) = afterFirst? word s := by
  simp only [afterFirst?, h]

theorem afterFirst?_append_self (hw : word ≠ []) (t : List Char) :
    afterFirst? word (word ++ t) = some t := by
  cases word with
  | nil => exact absurd rfl hw
  | cons c word =>
    have hp := isPrefixOf?_append_self (c :: word) t
    rw [List.cons_append] at hp ⊢
    simp only [afterFirst?, hp]

theorem isPrefixOf?_append_eq_none (hs : word.isPrefixOf? s = none) (hc : c ∉ word)
    (t : List Char) : word.isPrefixOf? (s ++ c :: t) = none := by
  cases h : word.isPrefixOf? (s ++ c :: t) with
  | none => rfl
  | some r =>
    rcases List.append_eq_append_iff.mp (List.append_eq_of_isPrefixOf?_eq_some h) with
      ⟨u, hu, -⟩ | ⟨u, hu, hr⟩
    · rw [hu, isPrefixOf?_append_self] at hs
      simp at hs
    · cases u with
      | nil =>
        rw [List.append_nil] at hu
        rw [← hu] at hs
        have hself := isPrefixOf?_append_self word []
        rw [List.append_nil, hs] at hself
        simp at hself
      | cons d u =>
        rw [List.cons_append] at hr
        rw [hu, (List.cons.inj hr).1] at hc
        simp at hc

/-- The search goes on behind a part without the word and a character that is not in the word. -/
theorem afterFirst?_append_cons (hw : word ≠ []) (hs : afterFirst? word s = none) (hc : c ∉ word)
    (t : List Char) : afterFirst? word (s ++ c :: t) = afterFirst? word t := by
  induction s with
  | nil =>
    have hp : word.isPrefixOf? [] = none := by cases word with
      | nil => exact absurd rfl hw
      | cons => rfl
    exact afterFirst?_cons_of_none (isPrefixOf?_append_eq_none hp hc t)
  | cons d s ih =>
    obtain ⟨hp, hrest⟩ := afterFirst?_eq_none_of_cons hs
    exact (afterFirst?_cons_of_none (isPrefixOf?_append_eq_none hp hc t)).trans (ih hrest)

theorem afterFirst?_eq_none_of_not_mem (hc : c ∈ word) (hs : c ∉ s) :
    afterFirst? word s = none := by
  induction s with
  | nil => simp [afterFirst?, List.ne_nil_of_mem hc]
  | cons d s ih =>
    have hp : word.isPrefixOf? (d :: s) = none := by
      cases hp : word.isPrefixOf? (d :: s) with
      | none => rfl
      | some rest =>
        rw [← List.append_eq_of_isPrefixOf?_eq_some hp] at hs
        exact absurd (List.mem_append_left rest hc) hs
    rw [afterFirst?_cons_of_none hp]
    exact ih fun h ↦ hs (List.mem_cons_of_mem d h)

/-- `rest` stands behind the first occurrence of `word`. -/
def FollowsFirst (word s rest : List Char) : Prop :=
  ∃ before, s = before ++ (word ++ rest) ∧
    ∀ before' rest', s = before' ++ (word ++ rest') → before.length ≤ before'.length

theorem afterFirst?_eq_some_iff {rest : List Char} :
    afterFirst? word s = some rest ↔ FollowsFirst word s rest := by
  induction s generalizing rest with
  | nil =>
    simp only [afterFirst?]
    constructor
    · intro h
      split at h
      · next hword =>
        cases h
        exact ⟨[], by simp [hword], fun _ _ _ ↦ Nat.zero_le _⟩
      · cases h
    · rintro ⟨before, hs, -⟩
      obtain ⟨-, htail⟩ := List.append_eq_nil_iff.mp hs.symm
      obtain ⟨hword, hrest⟩ := List.append_eq_nil_iff.mp htail
      rw [if_pos hword, hrest]
  | cons c s ih =>
    cases hp : word.isPrefixOf? (c :: s) with
    | some r =>
      have hr : word ++ r = c :: s := List.append_eq_of_isPrefixOf?_eq_some hp
      have hfirst : afterFirst? word (c :: s) = some r := by simp only [afterFirst?, hp]
      rw [hfirst, Option.some.injEq]
      constructor
      · rintro rfl
        exact ⟨[], hr.symm, fun _ _ _ ↦ Nat.zero_le _⟩
      · rintro ⟨before, hs, hmin⟩
        have hnil : before = [] := List.eq_nil_of_length_eq_zero (by
          have hle := hmin [] r hr.symm
          simpa using hle)
        rw [hnil, List.nil_append, ← hr] at hs
        exact List.append_cancel_left hs
    | none =>
      -- No occurrence starts at `c`, so every occurrence lies in `s`.
      have hhere (rest' : List Char) : c :: s ≠ word ++ rest' := by
        intro hs
        rw [hs, isPrefixOf?_append_self] at hp
        cases hp
      rw [afterFirst?_cons_of_none hp, ih]
      constructor
      · rintro ⟨before, hs, hmin⟩
        refine ⟨c :: before, by rw [hs, List.cons_append], ?_⟩
        intro before' rest' hs'
        cases before' with
        | nil => exact absurd hs' (hhere rest')
        | cons d before' =>
          exact Nat.succ_le_succ (hmin before' rest' (List.cons.inj hs').2)
      · rintro ⟨before, hs, hmin⟩
        cases before with
        | nil => exact absurd hs (hhere rest)
        | cons d before =>
          obtain ⟨rfl, htail⟩ := List.cons.inj hs
          refine ⟨before, htail, ?_⟩
          intro before' rest' hs'
          have hle := hmin (c :: before') rest' (by rw [hs', List.cons_append])
          exact Nat.le_of_succ_le_succ hle

theorem occurs_eq_false_iff : occurs word s = false ↔ afterFirst? word s = none := by
  simp [occurs]

/-- A text is cut at the first occurrence of a character in one way only. -/
theorem append_cons_inj {l l' t t' : List Char} (hl : c ∉ l) (hl' : c ∉ l')
    (h : l ++ c :: t = l' ++ c :: t') : l = l' ∧ t = t' := by
  induction l generalizing l' with
  | nil =>
    cases l' with
    | nil => exact ⟨rfl, (List.cons.inj h).2⟩
    | cons d l' => exact absurd ((List.cons.inj h).1 ▸ List.mem_cons_self) hl'
  | cons d l ih =>
    cases l' with
    | nil => exact absurd ((List.cons.inj h).1 ▸ List.mem_cons_self) hl
    | cons d' l' =>
      obtain ⟨rfl, hrest⟩ := List.cons.inj h
      have hcut := ih (List.not_mem_of_not_mem_cons hl) (List.not_mem_of_not_mem_cons hl') hrest
      exact ⟨congrArg (d :: ·) hcut.1, hcut.2⟩

theorem lines_append_break {line : List Char} (h : '\n' ∉ line) (rest : List Char) :
    lines (line ++ '\n' :: rest) = line :: lines rest := by
  induction line with
  | nil => simp [lines, pieces]
  | cons c line ih =>
    have hc : c ≠ '\n' := fun hc ↦ h (hc ▸ List.mem_cons_self)
    have hline := ih fun hmem ↦ h (List.mem_cons_of_mem c hmem)
    rw [lines] at hline
    rw [List.cons_append, lines, pieces, if_neg hc, hline, lines]

theorem not_mem_of_mem_pieces {sep : Char} {p : List Char} (h : p ∈ pieces sep s) : sep ∉ p := by
  induction s generalizing p with
  | nil => simp_all [pieces]
  | cons c s ih =>
    rw [pieces] at h
    split at h
    · rcases List.mem_cons.mp h with rfl | h
      · exact List.not_mem_nil
      · exact ih h
    · next hc =>
      split at h
      · next hnil => exact absurd hnil (pieces_ne_nil sep s)
      · next q qs hqs =>
        rcases List.mem_cons.mp h with rfl | h
        · have hq := ih (hqs ▸ List.mem_cons_self)
          exact List.not_mem_cons_of_ne_of_not_mem (Ne.symm hc) hq
        · exact ih (hqs ▸ List.mem_cons_of_mem q h)

end ConfidentialPolicy.Text

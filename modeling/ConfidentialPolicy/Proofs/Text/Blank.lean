import ConfidentialPolicy.Text.Blank
import Mathlib.Data.List.DropRight

namespace ConfidentialPolicy.Text

variable {s t : List Char}

theorem trimEnd_isInitial (s : List Char) : trimEnd s <+: s := List.rdropWhile_prefix isBlank s

theorem mem_of_mem_trim {c : Char} (h : c ∈ trim s) : c ∈ s :=
  (List.dropWhile_suffix isBlank).mem ((trimEnd_isInitial (trimStart s)).mem h)

theorem trimStart_trim (s : List Char) : trimStart (trim s) = trim s := by
  cases h : trim s with
  | nil => rfl
  | cons c u =>
    obtain ⟨v, hv⟩ := trimEnd_isInitial (trimStart s)
    have hc : isBlank c = false := by
      have hhead := List.head?_dropWhile_not isBlank s
      rw [trim] at h
      rw [h] at hv
      rw [← trimStart, ← hv] at hhead
      exact hhead
    exact trimStart_cons_of_not_blank hc u

@[simp]
theorem trim_trim (s : List Char) : trim (trim s) = trim s := by
  rw [trim, trimStart_trim, trim]
  exact List.rdropWhile_idempotent isBlank (trimStart s)

/-- A text without blanks at its ends has none at its end. -/
theorem trimEnd_eq_self (h : trim s = s) : trimEnd s = s := by
  have hstart : trimStart s = s := by
    rw [← h]
    exact trimStart_trim s
  rwa [trim, hstart] at h

theorem trimEnd_append (h : trimEnd t ≠ []) (s : List Char) :
    trimEnd (s ++ t) = s ++ trimEnd t := by
  have hne : t.reverse.dropWhile isBlank ≠ [] := fun he ↦ h (by rw [trimEnd, he]; rfl)
  rw [trimEnd, List.reverse_append, List.dropWhile_append, if_neg (by simpa using hne),
    List.reverse_append, List.reverse_reverse, trimEnd]

end ConfidentialPolicy.Text

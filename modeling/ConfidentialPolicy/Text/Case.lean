namespace ConfidentialPolicy.Text

def lower (s : String) : String := String.ofList (s.toList.map Char.toLower)

/-- Equality without regard to the case of the letters `A` to `Z`. -/
def sameLetters (s t : String) : Bool := s.toList.map Char.toLower == t.toList.map Char.toLower

theorem sameLetters_iff {s t : String} :
    sameLetters s t = true ↔ s.toList.map Char.toLower = t.toList.map Char.toLower := by
  simp [sameLetters]

@[simp] theorem sameLetters_refl (s : String) : sameLetters s s = true := by simp [sameLetters]

end ConfidentialPolicy.Text

import ConfidentialPolicy.Document
import ConfidentialPolicy.Proofs.Text.Base64
import ConfidentialPolicy.Proofs.Text.Utf8

namespace ConfidentialPolicy

theorem decodeText_encodeText {text : String} : decodeText (encodeText text) = .ok text := by
  simp only [decodeText, encodeText, String.toList_ofList, Text.Base64.trim_encode,
    Text.Base64.decode?_encode, Text.Utf8.decode?_encode, String.ofList_toList]

theorem trim_encodeText_ne_nil {text : String} (h : text.toList ≠ []) :
    Text.trim (encodeText text).toList ≠ [] := by
  rw [encodeText, String.toList_ofList, Text.Base64.trim_encode]
  exact Text.Base64.encode_ne_nil (Text.Utf8.encode_ne_nil h)

theorem decodeText_eq_ok_iff {text policy : String} :
    decodeText text = .ok policy ↔ Text.trim text.toList = (encodeText policy).toList := by
  rw [encodeText, String.toList_ofList, ← Text.Base64.decode?_eq_some_iff, decodeText]
  split
  · next hnone =>
    rw [hnone]
    exact ⟨nofun, nofun⟩
  · next octets hoctets =>
    have henc : octets = Text.Utf8.encode policy.toList ↔
        Text.Utf8.decode? octets = some policy.toList := Text.Utf8.decode?_eq_some_iff.symm
    rw [hoctets, Option.some_inj, henc]
    split
    · next hnone =>
      rw [hnone]
      exact ⟨nofun, nofun⟩
    · next chars hchars =>
      rw [hchars, Option.some_inj, Except.ok.injEq, ← String.toList_inj, String.toList_ofList]

/-- Encoding and decoding undo each other: every text is read back from its encoding, and a text
that is decoded is the encoding of the result, but for blanks around it. -/
theorem decodeText_exact :
    (∀ policy, decodeText (encodeText policy) = .ok policy) ∧
    (∀ text policy,
      decodeText text = .ok policy ↔ encodeText policy = String.ofList (Text.trim text.toList)) ∧
    ∀ text other policy, decodeText text = .ok policy → decodeText other = .ok policy →
      Text.trim text.toList = Text.trim other.toList := by
  refine ⟨fun policy ↦ decodeText_encodeText, fun text policy ↦ ?_, ?_⟩
  · rw [decodeText_eq_ok_iff, ← String.toList_inj, String.toList_ofList, eq_comm]
  · intro text other policy htext hother
    have hleft := decodeText_eq_ok_iff.mp htext
    have hright := decodeText_eq_ok_iff.mp hother
    exact hleft.trans hright.symm

theorem decodeText_exact_paddedText :
    decodeText "\n aGk= " = .ok "hi" ∧ decodeText "aGk=" = .ok "hi" ∧
    Text.trim "\n aGk= ".toList = Text.trim "aGk=".toList ∧
    decodeText "aGk" = .error .notBase64 ∧ decodeText "aGl=" = .error .notBase64 := by
  obtain ⟨-, hread, hunique⟩ := decodeText_exact
  have htext : decodeText "\n aGk= " = .ok "hi" := (hread _ _).mpr (by decide +kernel)
  have hother : decodeText "aGk=" = .ok "hi" := (hread _ _).mpr (by decide +kernel)
  exact ⟨htext, hother, hunique _ _ _ htext hother, by decide +kernel, by decide +kernel⟩

end ConfidentialPolicy

import ConfidentialPolicy.Fragment.Import
import ConfidentialPolicy.Proofs.Checked
import ConfidentialPolicy.Proofs.KeyMap
import ConfidentialPolicy.Proofs.Text.Digits
import Mathlib.Tactic.Common

namespace ConfidentialPolicy

theorem Text.wordOfDigits?_toDigits (n : UInt64) :
    wordOfDigits? (Nat.toDigits 10 n.toNat) = some n := by
  have hdigits : Nat.toDigits 10 n.toNat ≠ [] ∧ (Nat.toDigits 10 n.toNat).all isDigit = true :=
    ⟨Nat.toDigits_ne_nil, List.all_eq_true.mpr fun _ ↦ isDigit_of_mem_toDigits⟩
  have hle : n.toNat ≤ maxWord := Nat.le_sub_one_of_lt n.toNat_lt
  rw [wordOfDigits?, if_pos hdigits, natOf_toDigits, word?, if_pos hle]
  exact congrArg some UInt64.ofNat_toNat

theorem Text.wordOf?_toDigits (n : UInt64) : wordOf? (Nat.toDigits 10 n.toNat) = some n := by
  rw [← wordOfDigits?_toDigits n]
  unfold wordOf?
  split
  · next s hs =>
    have hplus : isDigit '+' = true := isDigit_of_mem_toDigits (hs ▸ List.mem_cons_self)
    exact absurd hplus (by decide)
  · rfl

theorem Json.strings?_ofStrings (ss : List String) : (ofStrings ss).strings? = some ss := by
  simp only [ofStrings, strings?, items?, Option.bind_some, List.mapM_map]
  exact Checked.mapM_pure_eq ss

namespace FragmentImport

theorem svn?_svnText (i : FragmentImport) : svn? (.str i.svnText) = some i.minimumSvn := by
  rw [svn?, svnText, Text.decimal, String.toList_ofList]
  exact Text.wordOf?_toDigits i.minimumSvn

theorem toJson_eq (i : FragmentImport) : i.toJson = .obj [("feed", .str i.feed),
    ("includes", .ofStrings i.includes), ("issuer", .str i.issuer),
    ("minimum_svn", .str i.svnText)] := by
  refine congrArg Json.obj (KeyMap.ofList_of_sorted ?_)
  have hkeys : ["feed", "includes", "issuer", "minimum_svn"].Pairwise (· < ·) := by decide
  exact (List.pairwise_map (l := [("feed", Json.str i.feed), ("includes", .ofStrings i.includes),
    ("issuer", .str i.issuer), ("minimum_svn", .str i.svnText)]) (f := (·.1))).mp hkeys

theorem record?_toJson (i : FragmentImport) : record? i.toJson =
    some [some (.str i.feed), some (.str i.issuer), some (.str i.svnText),
      some (.ofStrings i.includes)] := by
  rw [toJson_eq]
  simp +decide [record?, fieldNames, Fields.find?]

theorem ofJson_toJson (i : FragmentImport) : ofJson i.toJson = .ok i := by
  have hi : ofRecord? [some (.str i.feed), some (.str i.issuer), some (.str i.svnText),
      some (.ofStrings i.includes)] = some i := by
    simp [ofRecord?, Record.field?, Record.fieldOr?, svn?_svnText, Json.strings?_ofStrings,
      Json.str?]
  rw [ofJson, record?_toJson, Option.bind_some, hi]

theorem toJson_injective : Function.Injective toJson := by
  intro i j h
  have hj := ofJson_toJson j
  rw [← h, ofJson_toJson] at hj
  exact Except.ok.inj hj

end FragmentImport

end ConfidentialPolicy

import ConfidentialPolicy.Proofs.Json.Rendering
import ConfidentialPolicy.Proofs.Yaml.Edits

namespace ConfidentialPolicy.PolicyText

open Json

/-- Values of 64-bit integers, booleans, null and of strings and keys without escapes. Keys are
shorter than 1023 characters, and a list of such values is at most 128 levels deep: these are the
limits of the YAML reader. -/
structure Editable (v : Json) : Prop where
  integral : v.Integral
  legible : Yaml.Legible v
  depth_lt : v.depth < Yaml.Node.maxDepth

variable {vs : List Json} {s : List Char}

/-- Whether an edited list is read as JSON or as YAML does not matter. -/
theorem parseList_of_mem_edits (hi : (Json.arr vs).Integral) (hl : Yaml.Legible (.arr vs))
    (hd : (Json.arr vs).depth ≤ Yaml.Node.maxDepth) {depth : Nat} (hs : s ∈ edits depth (.arr vs)) :
    parseList s = .ok (vs.map Json.canonicalize) := by
  cases hread : jsonItems? s with
  | some items =>
    obtain ⟨u, hu, hitems⟩ := Option.bind_eq_some_iff.mp hread
    have hvalue := eq_of_parse?_of_mem_edits hi hs hu
    rw [Json.canonicalize, canonicalizeItems_eq_map] at hvalue
    rw [hvalue, Json.items?, Option.some.injEq] at hitems
    simp only [parseList, hread, hitems]
  | none => simp only [parseList, hread, Yaml.parseList?_of_mem_edits hi hl hd hs]

theorem pretty_mem_edits (v : Json) : v.pretty.toList ∈ edits 0 v.canonicalize := by
  rw [Json.pretty, Json.render, Json.text, String.toList_ofList]
  exact write_mem_edits v.canonicalize 0

/-- A list is read the same from its indented text and from every edited form of that text. -/
theorem parseList_edited (h : ∀ v ∈ vs, Editable v) (hs : s ∈ edits 0 (Json.arr vs).canonicalize) :
    parseList s = parseList (Json.arr vs).pretty.toList ∧
    parseList s = .ok (vs.map Json.canonicalize) ∧
    ((Json.arr vs).Canonical → parseList s = .ok vs) := by
  have hi : (Json.arr vs).Integral := integral_arr_iff.mpr fun v hv ↦ (h v hv).integral
  have hl : Yaml.Legible (.arr vs) := Yaml.legible_arr_iff.mpr fun v hv ↦ (h v hv).legible
  have hd : (Json.arr vs).depth ≤ Yaml.Node.maxDepth :=
    depth_arr_le fun v hv ↦ Nat.le_pred_of_lt (h v hv).depth_lt
  have hread (t : List Char) (ht : t ∈ edits 0 (Json.arr vs).canonicalize) :
      parseList t = .ok (vs.map Json.canonicalize) := by
    have hi' := integral_canonicalize hi
    have hl' := hl.canonicalize
    have hd' := (depth_canonicalize_le (.arr vs)).trans hd
    have hmembers : (Json.arr vs).canonicalize.canonicalize = (Json.arr vs).canonicalize :=
      canonicalize_eq_self (canonical_canonicalize _)
    simp only [Json.canonicalize, canonicalizeItems_eq_map, arr.injEq] at ht hi' hl' hd' hmembers
    rw [parseList_of_mem_edits hi' hl' hd' ht, hmembers]
  refine ⟨(hread s hs).trans (hread _ (pretty_mem_edits _)).symm, hread s hs, fun hc ↦ ?_⟩
  have hsame := canonicalize_eq_self hc
  rw [Json.canonicalize, canonicalizeItems_eq_map, arr.injEq] at hsame
  rw [hread s hs, hsame]

def sampleList : List Json :=
  [.obj [("includes", .arr [.str "containers, #1: null", .num (.int minInt64)])], .null]

def sampleEdited : String :=
  "[\n\t \x7b\n  \t \"includes\": [\n\t\t\t\t\t\t\"containers, #1: null\",\n      " ++
    "-9223372036854775808,\n    ],\n  \x7d,\n  null,\n]"

theorem canonicalize_sampleList : (Json.arr sampleList).canonicalize = .arr sampleList := by
  decide +kernel

theorem editable_of_mem_sampleList {v : Json} (h : v ∈ sampleList) : Editable v := by
  have hminimum : (Number.int minInt64).IsWord := ⟨by decide, by decide⟩
  have hkey : Yaml.IsLiteral "includes" ∧ "includes".length + 2 ≤ Yaml.Lexer.maxKeyLength := by
    decide +kernel
  have hstring : Yaml.IsLiteral "containers, #1: null" := by decide +kernel
  have hdepth : ∀ v ∈ sampleList, v.depth < Yaml.Node.maxDepth := by decide +kernel
  have hintegral : ∀ v ∈ sampleList, v.Integral := by
    simp [sampleList, integral_obj_iff, hminimum]
  have hlegible : ∀ v ∈ sampleList, Yaml.Legible v := by
    simp [sampleList, Yaml.legible_obj_iff, Yaml.legible_arr_iff, Yaml.legible_str_iff, hkey,
      hstring]
  exact ⟨hintegral v h, hlegible v h, hdepth v h⟩

theorem sampleEdited_mem_edits :
    sampleEdited.toList ∈ edits 0 (Json.arr sampleList).canonicalize := by
  have h₁ : ['\n', '\t', ' '] ∈ indentations 1 := cons_mem_indentations rfl (by simp)
  have h₂ : ['\n', ' ', ' ', '\t', ' '] ∈ indentations 2 := cons_mem_indentations rfl (by simp)
  have h₃ : '\n' :: List.replicate 6 '\t' ∈ indentations 3 :=
    cons_mem_indentations rfl (by simp)
  have hminimum := cons_mem_itemEdits (gap_mem_indentations 3)
    (write_mem_edits (.num (.int minInt64)) 3) (nil_mem_itemEdits 3)
  have hincludes := arr_mem_edits h₃ (write_mem_edits (.str "containers, #1: null") 3) hminimum
    (comma_ending_mem_endings (gap_mem_indentations 2) ']')
  have hobject := obj_mem_edits (k := "includes") h₂ hincludes (nil_mem_memberEdits 2)
    (comma_ending_mem_endings (gap_mem_indentations 1) '}')
  have hnull := cons_mem_itemEdits (gap_mem_indentations 1) (write_mem_edits .null 1)
    (nil_mem_itemEdits 1)
  have htext := arr_mem_edits h₁ hobject hnull
    (comma_ending_mem_endings (gap_mem_indentations 0) ']')
  rw [canonicalize_sampleList]
  refine (congrArg (· ∈ edits 0 (.arr sampleList)) ?_).mpr htext
  decide +kernel

/-- The sample is no JSON any more. -/
theorem parseList_edited_sampleEdited :
    (∀ v ∈ sampleList, Editable v) ∧
    sampleEdited.toList ∈ edits 0 (Json.arr sampleList).canonicalize ∧
    jsonItems? sampleEdited.toList = none ∧ parseList sampleEdited.toList = .ok sampleList := by
  have hsample (v : Json) (hv : v ∈ sampleList) : Editable v := editable_of_mem_sampleList hv
  have hcanonical : (Json.arr sampleList).Canonical := by
    rw [← canonicalize_sampleList]
    exact canonical_canonicalize _
  obtain ⟨-, -, hread⟩ := parseList_edited hsample sampleEdited_mem_edits
  exact ⟨hsample, sampleEdited_mem_edits, by decide +kernel, hread hcanonical⟩

end ConfidentialPolicy.PolicyText

import ConfidentialPolicy.Drift
import ConfidentialPolicy.Proofs.Container
import ConfidentialPolicy.Proofs.Fragment.Import
import ConfidentialPolicy.Proofs.Json.Difference

namespace ConfidentialPolicy.DriftReport

open Json

theorem mem_ids {id : String} {records : List Json} :
    id ∈ ids records ↔ withId id records ≠ [] := by
  simp [ids, withId, List.mem_eraseDups]

/-- What holds of all records holds of those with an id. -/
theorem forall_mem_withId_getElem? {p : Json → Prop} {records : List Json}
    (h : ∀ v ∈ records, p v) (id : String) (n : Nat) : ∀ v ∈ (withId id records)[n]?, p v :=
  fun v hv ↦ h v (List.mem_of_mem_filter (List.mem_of_getElem? hv))

theorem pairChanges_eq_nil_iff {old new : Option Json} (hold : ∀ v ∈ old, v.Canonical)
    (hnew : ∀ w ∈ new, w.Canonical) :
    pairChanges old new = [] ↔ old.map unsigned = new.map unsigned := by
  cases old with
  | none => cases new <;> simp [pairChanges]
  | some v =>
    cases new with
    | none => simp [pairChanges]
    | some w =>
      rw [pairChanges, difference_eq_nil_iff_same (hold v rfl) (hnew w rfl), Option.map_some,
        Option.map_some, Option.some.injEq, Same]

/-- Where records have changes, one of them is there. -/
theorem place_of_pairChanges_ne_nil {old new : List Json} {id : String} {n : Nat}
    (h : pairChanges (withId id old)[n]? (withId id new)[n]? ≠ []) :
    id ∈ ids (old ++ new) ∧ n < max (withId id old).length (withId id new).length := by
  have hn : n < max (withId id old).length (withId id new).length := by
    apply Nat.lt_of_not_le
    intro hle
    apply h
    rw [List.getElem?_eq_none (by omega), List.getElem?_eq_none (by omega), pairChanges]
  refine ⟨mem_ids.mpr fun hnil ↦ ?_, hn⟩
  rw [withId, List.filter_append] at hnil
  obtain ⟨hold, hnew⟩ := List.append_eq_nil_iff.mp hnil
  rw [withId, hold, withId, hnew] at hn
  exact absurd hn (Nat.not_lt_zero n)

/-- The entries are the pairs of records with one id and one place that differ. -/
theorem mem_entries_iff {old new : List Json} {e : String × List Change} :
    e ∈ entries old new ↔ ∃ id n, pairChanges (withId id old)[n]? (withId id new)[n]? ≠ [] ∧
      e = (label id n, pairChanges (withId id old)[n]? (withId id new)[n]?) := by
  simp only [entries, pairs, List.mem_flatMap, List.mem_filter, List.mem_map, List.mem_range,
    decide_eq_true_eq]
  constructor
  · rintro ⟨id, -, ⟨n, -, rfl⟩, hne⟩
    exact ⟨id, n, hne, rfl⟩
  · rintro ⟨id, n, hne, rfl⟩
    obtain ⟨hid, hn⟩ := place_of_pairChanges_ne_nil hne
    exact ⟨id, hid, ⟨n, hn, rfl⟩, hne⟩

/-- No entry is reported where no pair of records with one id and one place differs. -/
theorem entries_eq_nil_iff {old new : List Json} : entries old new = [] ↔
    ∀ id, ∀ n : Nat, pairChanges (withId id old)[n]? (withId id new)[n]? = [] := by
  rw [List.eq_nil_iff_forall_not_mem]
  constructor
  · intro h id n
    by_contra hne
    exact h _ (mem_entries_iff.mpr ⟨id, n, hne, rfl⟩)
  · intro h e he
    obtain ⟨id, n, hne, -⟩ := mem_entries_iff.mp he
    exact hne (h id n)

theorem isEqual_compare_iff_pairChanges {old new : List Json} :
    (compare old new).isEqual = true ↔
      ∀ id, ∀ n : Nat, pairChanges (withId id old)[n]? (withId id new)[n]? = [] := by
  rw [← entries_eq_nil_iff, compare, List.isEmpty_iff, KeyMap.ofList_eq_nil_iff,
    List.map_eq_nil_iff]

/-- Records in canonical form do not drift just where those with each id are the same, in order. -/
theorem isEqual_compare_iff_same {old new : List Json} (hold : ∀ v ∈ old, v.Canonical)
    (hnew : ∀ w ∈ new, w.Canonical) : (compare old new).isEqual = true ↔
      ∀ id, List.Forall₂ Same (withId id old) (withId id new) := by
  rw [isEqual_compare_iff_pairChanges]
  refine forall_congr' fun id ↦ ?_
  have hpair (n : Nat) : pairChanges (withId id old)[n]? (withId id new)[n]? = [] ↔
      ((withId id old).map unsigned)[n]? = ((withId id new).map unsigned)[n]? := by
    rw [List.getElem?_map, List.getElem?_map]
    exact pairChanges_eq_nil_iff (forall_mem_withId_getElem? hold id n)
      (forall_mem_withId_getElem? hnew id n)
  simp only [hpair, forall₂_same_iff]
  constructor
  · exact List.ext_getElem?
  · intro h n
    rw [h]

theorem isEqual_compare_iff {old new : List Json} (hold : ∀ v ∈ old, v.Canonical ∧ v.Integral)
    (hnew : ∀ w ∈ new, w.Canonical) :
    (compare old new).isEqual = true ↔ ∀ id, withId id old = withId id new := by
  rw [isEqual_compare_iff_same (fun v hv ↦ (hold v hv).1) hnew]
  refine forall_congr' fun id ↦ ?_
  have hintegral : (Json.arr (withId id old)).Integral :=
    integral_arr_iff.mpr fun v hv ↦ (hold v (List.mem_of_mem_filter hv)).2
  rw [← same_arr_iff, same_iff_eq hintegral, arr.injEq]

/-- The verdict depends on nothing but the records with each id. -/
theorem isEqual_compare_congr {old new old' new' : List Json}
    (hold : ∀ id, withId id old = withId id old') (hnew : ∀ id, withId id new = withId id new') :
    (compare old new).isEqual = (compare old' new').isEqual := by
  rw [Bool.eq_iff_iff, isEqual_compare_iff_pairChanges, isEqual_compare_iff_pairChanges]
  simp only [hold, hnew]

structure Records where
  items : List Json
  canonical : ∀ v ∈ items, v.Canonical

theorem Records.isEqual_compare_iff {old new : Records} :
    (compare old.items new.items).isEqual = true ↔
      ∀ id, (withId id old.items).map unsigned = (withId id new.items).map unsigned := by
  simp only [← forall₂_same_iff]
  exact isEqual_compare_iff_same old.canonical new.canonical

theorem Records.equivalence_compare :
    Equivalence fun old new : Records ↦ (compare old.items new.items).isEqual = true where
  refl _ := isEqual_compare_iff.mpr fun _ ↦ rfl
  symm h := isEqual_compare_iff.mpr fun id ↦ (isEqual_compare_iff.mp h id).symm
  trans h₁ h₂ := isEqual_compare_iff.mpr fun id ↦
    (isEqual_compare_iff.mp h₁ id).trans (isEqual_compare_iff.mp h₂ id)

/-- Lists of records do not drift just where the records with each id are the same, in order. Records
without an id do not matter, nor does the order of records with different ids, and not to drift is
an equivalence. -/
theorem isEqual_compare_exact :
    (∀ old new : Records, (compare old.items new.items).isEqual = true ↔
      ∀ id, List.Forall₂ Same (withId id old.items) (withId id new.items)) ∧
    (∀ old new old' new' : List Json, (∀ id, withId id old = withId id old') →
      (∀ id, withId id new = withId id new') →
      (compare old new).isEqual = (compare old' new').isEqual) ∧
    Equivalence fun old new : Records ↦ (compare old.items new.items).isEqual = true :=
  ⟨fun old new ↦ isEqual_compare_iff_same old.canonical new.canonical,
    fun _ _ _ _ ↦ isEqual_compare_congr, Records.equivalence_compare⟩

def namedRecord (id command : String) : Json :=
  .obj [("command", .arr [.str command]), ("id", .str id)]

/-- A record without an id goes, and records with different ids change places. -/
theorem withId_namedRecord (id : String) :
    withId id [namedRecord "a" "run", .obj [("id", .null)], namedRecord "b" "run",
      namedRecord "a" "stop"] =
    withId id [namedRecord "b" "run", namedRecord "a" "run", namedRecord "a" "stop"] := by
  have ha (command : String) : recordId? (namedRecord "a" command) = some "a" := rfl
  have hb (command : String) : recordId? (namedRecord "b" command) = some "b" := rfl
  have hnone : recordId? (.obj [("id", .null)]) = none := rfl
  by_cases hid : id = "a"
  · simp [withId, ha, hb, hnone, hid]
  · simp [withId, List.filter_cons, ha, hb, hnone, Ne.symm hid]

theorem isEqual_compare_exact_namedRecord :
    (compare [namedRecord "a" "run", .obj [("id", .null)], namedRecord "b" "run",
      namedRecord "a" "stop"] [namedRecord "a" "stop"]).isEqual =
    (compare [namedRecord "b" "run", namedRecord "a" "run", namedRecord "a" "stop"]
      [namedRecord "a" "stop"]).isEqual :=
  isEqual_compare_exact.2.1 _ _ _ _ withId_namedRecord fun _ ↦ rfl

theorem canonicalImport_toJson (i : FragmentImport) : canonicalImport i.toJson = i.toJson := by
  rw [canonicalImport, FragmentImport.ofJson_toJson]

theorem compareFragments_eq_iff (found expected : List FragmentImport) :
    compareFragments (found.map FragmentImport.toJson) expected = .obj [] ↔ found = expected := by
  have hfound : (found.map FragmentImport.toJson).map canonicalImport =
      found.map FragmentImport.toJson := by
    simp only [List.map_map, Function.comp_def, canonicalImport_toJson]
  have hplain := FragmentImport.plain_listToJson found
  have hplain' := FragmentImport.plain_listToJson expected
  rw [compareFragments, report_eq_iff, hfound]
  refine (difference_eq_nil_iff hplain.canonical hplain.integral hplain'.canonical).trans ?_
  rw [FragmentImport.listToJson, FragmentImport.listToJson, arr.injEq,
    (List.map_injective_iff.mpr FragmentImport.toJson_injective).eq_iff]

end ConfidentialPolicy.DriftReport

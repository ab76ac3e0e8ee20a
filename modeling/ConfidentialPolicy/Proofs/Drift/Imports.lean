import ConfidentialPolicy.Proofs.Drift
import ConfidentialPolicy.Proofs.Fragment.Spelling
import ConfidentialPolicy.Proofs.Json.Difference.Truth
import ConfidentialPolicy.Proofs.Respelling.Fields

namespace ConfidentialPolicy

open Json

namespace Json

theorem addedItems_eq_nil_iff {start : Nat} {ws : List Json} : addedItems start ws = [] ↔ ws = [] := by
  cases ws <;> simp [addedItems]

theorem itemDifference_eq_nil_iff {start : Nat} {vs ws : List Json} :
    itemDifference start vs ws = [] ↔ List.Forall₂ (fun v w ↦ difference v w = []) vs ws := by
  induction vs generalizing start ws with
  | nil => rw [itemDifference, addedItems_eq_nil_iff, List.forall₂_nil_left_iff]
  | cons v vs ih =>
    cases ws with
    | nil => simp [itemDifference]
    | cons w ws =>
      rw [itemDifference, List.append_eq_nil_iff, List.map_eq_nil_iff, ih, List.forall₂_cons]

theorem memberDifference_eq_nil_iff {ms ns : List (String × Json)} :
    memberDifference ms ns = [] ↔
      ∀ m ∈ ms, ∃ w, KeyMap.get? ns m.1 = some w ∧ difference m.2 w = [] := by
  induction ms with
  | nil => simp [memberDifference]
  | cons m ms ih =>
    obtain ⟨k, v⟩ := m
    rw [memberDifference, List.append_eq_nil_iff, ih, List.forall_mem_cons]
    refine and_congr_left fun _ ↦ ?_
    cases KeyMap.get? ns k <;> simp

theorem addedMembers_eq_nil_iff {ms ns : List (String × Json)} :
    addedMembers ms ns = [] ↔ ∀ n ∈ ns, (KeyMap.get? ms n.1).isSome = true := by
  simp [addedMembers, List.filter_eq_nil_iff, Option.isSome_iff_ne_none]

theorem eq_str_of_difference_eq_nil {v : Json} {s : String} (h : difference v (.str s) = []) :
    v = .str s := by
  cases v with
  | str t => simpa [difference, leafDifference, sameLeaf] using h
  | null | bool | num | arr | obj => simp [difference, leafDifference, sameLeaf] at h

theorem eq_ofStrings_of_difference_eq_nil {v : Json} {ss : List String}
    (h : difference v (.ofStrings ss) = []) : v = .ofStrings ss := by
  cases v with
  | arr vs =>
    have hitems := List.forall₂_map_right_iff.mp (itemDifference_eq_nil_iff.mp h)
    have heq : List.Forall₂ (fun v s ↦ v = Json.str s) vs ss :=
      hitems.imp fun _ _ ↦ eq_str_of_difference_eq_nil
    rw [← List.forall₂_map_right_iff, List.forall₂_eq_eq_eq] at heq
    exact congrArg arr heq
  | null | bool | num | str | obj => simp [ofStrings, difference, leafDifference, sameLeaf] at h

/-- An object without changes to another one has its fields. -/
theorem exists_find?_of_difference_eq_nil {ms ns : Members} {w : Json}
    (h : difference (.obj ms) (.obj ns) = []) (hns : Distinct ns) (name : String)
    (hw : KeyMap.get? ns name = some w) :
    ∃ v, Fields.find? ⟨ms⟩ name = some v ∧ difference v w = [] := by
  obtain ⟨hms, hadded⟩ := List.append_eq_nil_iff.mp h
  have hmem := KeyMap.mem_of_get?_eq_some hw
  obtain ⟨u, hu⟩ := Option.isSome_iff_exists.mp (addedMembers_eq_nil_iff.mp hadded (name, w) hmem)
  have hsome : (ms.find? fun m ↦ Text.sameLetters m.1 name).isSome = true :=
    List.find?_isSome.mpr ⟨(name, u), KeyMap.mem_of_get?_eq_some hu, Text.sameLetters_refl name⟩
  obtain ⟨⟨k, v⟩, hfind⟩ := Option.isSome_iff_exists.mp hsome
  have hk : Text.sameLetters k name = true := by simpa using List.find?_some hfind
  obtain ⟨x, hx, hnone⟩ :=
    memberDifference_eq_nil_iff.mp hms (k, v) (List.mem_of_find?_eq_some hfind)
  -- Both keys are spellings of one, so they are the same key of the other object.
  cases List.inj_on_of_nodup_map hns (KeyMap.mem_of_get?_eq_some hx) hmem
    (Text.sameLetters_iff_lower.mp hk)
  exact ⟨v, by rw [Fields.find?, hfind, Option.map_some], hnone⟩

end Json

namespace FragmentImport

/-- What has no changes to an import is a spelling of it. -/
theorem spells_of_difference_eq_nil {v : Json} {i : FragmentImport}
    (h : difference v i.toJson = []) : i.Spells v := by
  rw [toJson_eq] at h
  cases v with
  | obj ms =>
    have hdistinct : Distinct [("feed", Json.str i.feed), ("includes", .ofStrings i.includes),
        ("issuer", .str i.issuer), ("minimum_svn", .str i.svnText)] := by
      have hkeys : (["feed", "includes", "issuer", "minimum_svn"].map Text.lower).Nodup := by decide
      exact hkeys
    have hfields {w : Json} := exists_find?_of_difference_eq_nil (w := w) h hdistinct
    obtain ⟨feed, hfeed, hf⟩ := hfields "feed" rfl
    obtain ⟨issuer, hissuer, hs⟩ := hfields "issuer" rfl
    obtain ⟨version, hversion, hn⟩ := hfields "minimum_svn" rfl
    obtain ⟨includes, hincludes, hss⟩ := hfields "includes" rfl
    rw [eq_str_of_difference_eq_nil hf] at hfeed
    rw [eq_str_of_difference_eq_nil hs] at hissuer
    rw [eq_str_of_difference_eq_nil hn] at hversion
    rw [eq_ofStrings_of_difference_eq_nil hss] at hincludes
    exact .keyed (Fields.find?_eq_iff.mp hfeed) (Fields.find?_eq_iff.mp hissuer)
      (Fields.find?_eq_iff.mp hversion) (Fields.find?_eq_iff.mp hincludes)
      (svn?_eq_some_iff.mp (svn?_svnText i)) (.inl rfl)
  | null | bool | num | str | arr => simp [difference, leafDifference, sameLeaf] at h

end FragmentImport

namespace DriftReport

/-- An import is compared in canonical spelling, so it has no changes to the one it is read as; what
is no import is compared as it is, and never looks like one. -/
theorem difference_canonicalImport_eq_nil_iff {v : Json} {i : FragmentImport} :
    difference (canonicalImport v) i.toJson = [] ↔ FragmentImport.ofJson v = .ok i := by
  constructor
  · intro h
    have hspells := FragmentImport.spells_of_difference_eq_nil h
    rw [canonicalImport] at hspells
    split at hspells
    · next j hj =>
      have hread := FragmentImport.ofJson_eq_ok_iff.mpr hspells
      rw [FragmentImport.ofJson_toJson] at hread
      rw [hj, hread]
    · exact FragmentImport.ofJson_eq_ok_iff.mpr hspells
  · intro h
    have hplain := i.plain_toJson
    rw [canonicalImport, h]
    exact (difference_eq_nil_iff hplain.canonical hplain.integral hplain.canonical).mpr rfl

theorem compareFragments_eq_iff_listOfJson {found : List Json} {expected : List FragmentImport} :
    compareFragments found expected = .obj [] ↔ FragmentImport.listOfJson found = .ok expected := by
  rw [compareFragments, report_eq_iff, FragmentImport.listToJson, difference,
    itemDifference_eq_nil_iff, List.forall₂_map_left_iff, List.forall₂_map_right_iff,
    FragmentImport.listOfJson, Checked.mapM_eq_ok_iff]
  simp only [difference_canonicalImport_eq_nil_iff]

theorem partChanges_ne_nil_of_ofJson_eq_error {v : Json} {e : PolicyError}
    (h : FragmentImport.ofJson v = .error e) (s : Step) (i : Option FragmentImport) :
    partChanges s (some (canonicalImport v)) (i.map FragmentImport.toJson) ≠ [] := by
  cases i with
  | none => exact List.cons_ne_nil _ _
  | some i =>
    rw [Option.map_some, partChanges, Ne, List.map_eq_nil_iff, difference_canonicalImport_eq_nil_iff,
      h]
    intro hread
    cases hread

/-- What is no import has a change at its place, whatever is expected there. -/
theorem exists_change_of_ofJson_eq_error {found : List Json} {n : Nat} {v : Json} {e : PolicyError}
    (hv : found[n]? = some v) (h : FragmentImport.ofJson v = .error e)
    (expected : List FragmentImport) :
    ∃ c ∈ difference (.arr (found.map canonicalImport)) (FragmentImport.listToJson expected),
      c.path.head? = some (.index n) := by
  obtain ⟨c, hc⟩ := List.exists_mem_of_ne_nil _
    (partChanges_ne_nil_of_ofJson_eq_error h (.index n) expected[n]?)
  have hn : n < (found.map canonicalImport).length := by
    rw [List.length_map]
    exact (List.getElem?_eq_some_iff.mp hv).1
  refine ⟨c, ?_, ?_⟩
  · rw [FragmentImport.listToJson, difference, itemDifference_eq, List.mem_flatMap]
    refine ⟨n, List.mem_range.mpr (by omega), ?_⟩
    rwa [Nat.zero_add, List.getElem?_map, List.getElem?_map, hv]
  · obtain ⟨path, hpath⟩ := exists_path_of_mem_partChanges hc
    rw [hpath, List.head?_cons]

/-- Imports do not differ from the expected ones just where they are read as these; all spellings of
an import are read as it, and what is no import is reported at its place. -/
theorem compareFragments_exact :
    (∀ found expected, compareFragments found expected = .obj [] ↔
      FragmentImport.listOfJson found = .ok expected) ∧
    (∀ i : FragmentImport, FragmentImport.ofJson i.toJson = .ok i) ∧
    (∀ v i, FragmentImport.ofJson v = .ok i ↔ i.Spells v) ∧
    (∀ v i, i.Spells v → compareFragments [v] [i] = .obj []) ∧
    ∀ found expected (n : Nat) v e, found[n]? = some v → FragmentImport.ofJson v = .error e →
      compareFragments found expected ≠ .obj [] ∧
      ∃ c ∈ difference (.arr (found.map canonicalImport)) (FragmentImport.listToJson expected),
        c.path.head? = some (.index n) := by
  refine ⟨fun _ _ ↦ compareFragments_eq_iff_listOfJson, FragmentImport.ofJson_toJson,
    fun _ _ ↦ FragmentImport.ofJson_eq_ok_iff, ?_, ?_⟩
  · intro v i h
    rw [compareFragments_eq_iff_listOfJson, FragmentImport.listOfJson, Checked.mapM_eq_ok_iff]
    exact .cons (FragmentImport.ofJson_eq_ok_iff.mpr h) .nil
  · intro found expected n v e hv h
    have hchange := exists_change_of_ofJson_eq_error hv h expected
    refine ⟨fun hnone ↦ ?_, hchange⟩
    obtain ⟨c, hc, -⟩ := hchange
    rw [compareFragments, report_eq_iff] at hnone
    rw [hnone] at hc
    cases hc

def lastImport : FragmentImport := ⟨"feed", "issuer", 18446744073709551615, []⟩

def oddImport : Json := .obj [
  ("Feed", .str "feed"),
  ("ISSUER", .str "issuer"),
  ("Minimum_SVN", .str "+0018446744073709551615"),
  ("feed", .str "other"),
  ("note", .null)]

def strayImport : Json := .arr [.str "feed", .str "issuer", .str "18446744073709551616"]

theorem spells_oddImport : lastImport.Spells oddImport :=
  FragmentImport.ofJson_eq_ok_iff.mp rfl

theorem compareFragments_exact_oddImport :
    lastImport.Spells oddImport ∧ compareFragments [oddImport] [lastImport] = .obj [] ∧
    ∃ e, FragmentImport.ofJson strayImport = .error e ∧
      compareFragments [oddImport, strayImport] [lastImport, lastImport] ≠ .obj [] ∧
      ∃ c ∈ difference (.arr ([oddImport, strayImport].map canonicalImport))
        (FragmentImport.listToJson [lastImport, lastImport]), c.path.head? = some (.index 1) := by
  obtain ⟨-, -, -, hspells, hstray⟩ := compareFragments_exact
  have herror : FragmentImport.ofJson strayImport = .error _ := rfl
  exact ⟨spells_oddImport, hspells _ _ spells_oddImport, _, herror,
    hstray [oddImport, strayImport] [lastImport, lastImport] 1 strayImport _ rfl herror⟩

end DriftReport

end ConfidentialPolicy

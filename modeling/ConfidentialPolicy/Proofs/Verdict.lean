import ConfidentialPolicy.Proofs.Compile
import ConfidentialPolicy.Proofs.Drift
import ConfidentialPolicy.Proofs.PolicyText.RoundTrip

namespace ConfidentialPolicy

open Json Checked

theorem Json.canonical_of_items? {v : Json} {vs : List Json} (hv : v.Canonical)
    (h : v.items? = some vs) : ∀ w ∈ vs, w.Canonical := by
  cases v with
  | arr ws =>
    cases h
    exact canonical_arr_iff.mp hv
  | null | bool | num | str | obj => cases h

theorem Yaml.canonical_of_parseList? {s : List Char} {vs : List Json}
    (h : Yaml.parseList? s = some vs) : ∀ v ∈ vs, v.Canonical := by
  obtain ⟨n, -, h⟩ := Option.bind_eq_some_iff.mp h
  obtain ⟨v, -, h⟩ := Option.bind_eq_some_iff.mp h
  exact canonical_of_items? (canonical_canonicalize v) h

namespace PolicyText

theorem canonical_of_parseList {s : List Char} {vs : List Json} (h : parseList s = .ok vs) :
    ∀ v ∈ vs, v.Canonical := by
  unfold parseList at h
  split at h
  · next items hjson =>
    cases h
    obtain ⟨v, hv, hitems⟩ := Option.bind_eq_some_iff.mp hjson
    exact canonical_of_items? (canonical_of_parse? hv) hitems
  · split at h
    · next items hyaml =>
      cases h
      exact Yaml.canonical_of_parseList? hyaml
    · cases h

theorem canonical_of_containers {text : String} {vs : List Json}
    (h : containers text = .ok vs) : ∀ v ∈ vs, v.Canonical := by
  obtain ⟨list, -, hlist⟩ := bind_eq_ok_iff.mp h
  exact canonical_of_parseList hlist

end PolicyText

namespace DriftReport

/-- A record with an id that does not drift is among the new records. -/
theorem mem_of_isEqual_compare {old new : List Json} (h : (compare old new).isEqual = true)
    (hold : ∀ v ∈ old, v.Canonical) (hnew : ∀ w ∈ new, w.Canonical ∧ w.Integral) {v : Json}
    {id : String} (hv : v ∈ old) (hid : recordId? v = some id) : v ∈ new := by
  have hwith : v ∈ withId id old := List.mem_filter.mpr ⟨hv, by simp [hid]⟩
  obtain ⟨n, hn⟩ := List.mem_iff_getElem?.mp hwith
  have hpair := isEqual_compare_iff_pairChanges.mp h id n
  rw [hn] at hpair
  cases hw : (withId id new)[n]? with
  | none =>
    rw [hw] at hpair
    cases hpair
  | some w =>
    rw [hw] at hpair
    have hmem : w ∈ new := List.mem_of_mem_filter (List.mem_of_getElem? hw)
    obtain ⟨hcanonical, hintegral⟩ := hnew w hmem
    rw [eq_of_difference_eq_nil hpair (hold v hv) hcanonical hintegral]
    exact hmem

/-- If a deployed policy does not drift from a compiled one, its records with an id are records of
the compiled one. -/
theorem mem_records_of_isEqual_compare (k : Compiler) {input : PolicyInput}
    {c : Compiler.Compilation} {text : String} {deployed : List Json}
    (hc : k.compile input = .ok c) (ht : PolicyText.containers text = .ok deployed)
    (h : (compare deployed (c.document.records false)).isEqual = true) :
    ∀ v ∈ deployed, ∀ id, recordId? v = some id → v ∈ c.document.records false := by
  intro v hv id hid
  have hbuilt := Compiler.built_of_compile hc
  have hnew : ∀ w ∈ c.document.records false, w.Canonical ∧ w.Integral := by
    intro w hw
    have hplain := hbuilt.plain_records false w hw
    exact ⟨hplain.canonical, hplain.integral⟩
  exact mem_of_isEqual_compare h (PolicyText.canonical_of_containers ht) hnew hv hid

def bareCompiler : Compiler := { options := {} }

def appInput : PolicyInput where
  version := none
  containers := [⟨none, .obj [("id", .str "app"), ("containerImage", .str "image:1"),
    ("environmentVariables", .arr []), ("signals", .arr [.num (.int 9)])], .plain⟩]
  fragments := some []

def strayRecord : Json := .obj [("command", .arr [.str "/bin/sh"])]

theorem plain_strayRecord : strayRecord.Plain 4 := by
  have hmember : ∀ m ∈ [("command", Json.arr [.str "/bin/sh"])], m.2.Plain 1 := by
    intro m hm
    rw [List.mem_singleton.mp hm]
    exact plain_ofStrings ["/bin/sh"]
  exact (plain_obj (List.pairwise_singleton _ _) hmember).mono (by decide)

theorem mem_records_appInput : ∃ c text deployed, bareCompiler.compile appInput = .ok c ∧
    PolicyText.containers text = .ok deployed ∧
    (compare deployed (c.document.records false)).isEqual = true ∧
    ∀ v ∈ deployed, ∀ id, recordId? v = some id → v ∈ c.document.records false := by
  obtain ⟨c, hc, happ⟩ : ∃ c, bareCompiler.compile appInput = .ok c ∧
      (compare (strayRecord :: c.document.records false) (c.document.records false)).isEqual =
        true :=
    ⟨_, rfl, by decide +kernel⟩
  have hplain : (Json.arr (strayRecord :: c.document.records false)).Plain maxDepth := by
    have hrecords := (Compiler.built_of_compile hc).plain_records false
    exact (plain_arr (List.forall_mem_cons.mpr ⟨plain_strayRecord, hrecords⟩)).mono (by decide)
  have ht : PolicyText.containers (String.ofList (PolicyText.listsText [] []
      (strayRecord :: c.document.records false) .compact [])) = .ok _ :=
    PolicyText.containers_listsText String.toList_ofList rfl rfl hplain
  exact ⟨c, _, _, hc, ht, happ, mem_records_of_isEqual_compare bareCompiler hc ht happ⟩

/-- A deployed record without an id goes unnoticed. -/
theorem exists_unnoticed_record : ∃ c, bareCompiler.compile ⟨none, [], some []⟩ = .ok c ∧
    PolicyText.containers "package policy\n\ncontainers := [\x7b\"command\":[\"/bin/sh\"]\x7d]\n" =
      .ok [strayRecord] ∧
    (compare [strayRecord] (c.document.records false)).isEqual = true ∧
    strayRecord ∉ c.document.records false := by
  obtain ⟨c, hc, hrecords⟩ : ∃ c, bareCompiler.compile ⟨none, [], some []⟩ = .ok c ∧
      c.document.records false = [pauseContainer.record true] :=
    ⟨_, rfl, by decide +kernel⟩
  refine ⟨c, hc, by decide +kernel, ?_, ?_⟩
  · rw [hrecords]
    decide +kernel
  · rw [hrecords]
    decide +kernel

end DriftReport

end ConfidentialPolicy

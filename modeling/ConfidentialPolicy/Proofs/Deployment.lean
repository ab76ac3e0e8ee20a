import ConfidentialPolicy.Proofs.Compile
import ConfidentialPolicy.Proofs.Drift
import ConfidentialPolicy.Proofs.PolicyText.RoundTrip
import ConfidentialPolicy.Proofs.Template

namespace ConfidentialPolicy

open Json

theorem Document.parse?_policyText {d : Document} (h : d.Built) (omitId : Bool) :
    Json.parse? (d.policyText omitId) = none := by
  have hheader : Lexer.start.run policyHeaderLines = none := by decide +kernel
  have htokens : tokens? (d.policyText omitId).toList = none := by
    rw [tokens?, d.toList_policyText h, PolicyText.listsText, Lexer.run_append, hheader]
    rfl
  rw [parse?, htokens]
  rfl

theorem Document.toList_policyText_ne_nil {d : Document} (h : d.Built) (omitId : Bool) :
    (d.policyText omitId).toList ≠ [] := by
  rw [toList_policyText h, PolicyText.listsText]
  exact List.append_ne_nil_of_right_ne_nil _ (List.cons_ne_nil _ _)

namespace Template

/-- The policy of a document that is written into a template is read back from it. -/
theorem exists_policyOf_inject {d : Document} {t u : Json} {n : Nat} (h : d.Built)
    (hu : inject t n (d.serialize .encoded false) = .ok u)
    (hr : ∀ ms, t = .obj ms → UsualSpelling "resources" ms)
    (hc : ∀ group, groupAt? t n = some (.obj group) →
      UsualSpelling "ccePolicy" (confidentialOf group))
    (hm : Text.occurs PolicyText.containersMarker.toList d.fragmentsJson.pretty.toList = false)
    (defaults : List FragmentImport) :
    ∃ group, groupAt? u n = some group ∧ policyOf group defaults =
      .ok ⟨d.records false, d.fragments.map FragmentImport.toJson⟩ := by
  obtain ⟨group, hgroup, hpolicy⟩ := exists_groupAt?_inject hu hr hc
  have hencoded : d.serialize .encoded false = encodeText (d.policyText false) := rfl
  rw [hencoded] at hpolicy
  refine ⟨group, hgroup, ?_⟩
  rw [policyOf_of_encoded hpolicy (Document.toList_policyText_ne_nil h false)
    (Document.parse?_policyText h false), scan, Document.scan_policyText h false hm]

/-- A deployed policy drifts from a policy that is compiled again just where the records of some id
or the imports have changed. -/
theorem compare_deployed_iff (k : Compiler) {a b : PolicyInput} {ca cb : Compiler.Compilation}
    {t u : Json} {n : Nat} (defaults : List FragmentImport) (ha : k.compile a = .ok ca)
    (hb : k.compile b = .ok cb) (hu : inject t n (ca.document.serialize .encoded false) = .ok u)
    (hr : ∀ ms, t = .obj ms → UsualSpelling "resources" ms)
    (hc : ∀ group, groupAt? t n = some (.obj group) →
      UsualSpelling "ccePolicy" (confidentialOf group))
    (hm : Text.occurs PolicyText.containersMarker.toList
      ca.document.fragmentsJson.pretty.toList = false) :
    ∃ group p, groupAt? u n = some group ∧ policyOf group defaults = .ok p ∧
      ((DriftReport.compare p.containers (cb.document.records false)).isEqual = true ↔
        ∀ id, DriftReport.withId id (ca.document.records false) =
          DriftReport.withId id (cb.document.records false)) ∧
      (DriftReport.compareFragments p.fragments (k.importsFor b) = .obj [] ↔
        k.importsFor a = k.importsFor b) := by
  have hbuilt := Compiler.built_of_compile ha
  have hbuilt' := Compiler.built_of_compile hb
  obtain ⟨group, hgroup, hpolicy⟩ := exists_policyOf_inject hbuilt hu hr hc hm defaults
  refine ⟨group, _, hgroup, hpolicy, ?_, ?_⟩
  · refine DriftReport.isEqual_compare_iff (fun v hv ↦ ?_) fun w hw ↦ ?_
    · have hplain := hbuilt.plain_records false v hv
      exact ⟨hplain.canonical, hplain.integral⟩
    · exact (hbuilt'.plain_records false w hw).canonical
  · rw [DriftReport.compareFragments_eq_iff, Compiler.fragments_of_compile ha]

def plainCompiler : Compiler where
  options := {}
  layers := some fun _ ↦ .ok ["]", "\""]
  discovery := some ⟨fun _ ↦ .ok [], fun _ ↦ .ok []⟩

def hostileInput : PolicyInput := ⟨none, [⟨none, Document.hostileSpec, .plain⟩], some []⟩

def emptyInput : PolicyInput := ⟨none, [], none⟩

def bareTemplate : Json := .obj [("resources", .arr [.obj [("type", .str groupType)]])]

theorem compare_deployed_hostileInput : ∃ ca cb u,
    plainCompiler.compile hostileInput = .ok ca ∧ plainCompiler.compile emptyInput = .ok cb ∧
    inject bareTemplate 0 (ca.document.serialize .encoded false) = .ok u ∧
    ∃ group p, groupAt? u 0 = some group ∧ policyOf group [] = .ok p ∧
      ((DriftReport.compare p.containers (cb.document.records false)).isEqual = true ↔
        ∀ id, DriftReport.withId id (ca.document.records false) =
          DriftReport.withId id (cb.document.records false)) ∧
      (DriftReport.compareFragments p.fragments (plainCompiler.importsFor emptyInput) = .obj [] ↔
        plainCompiler.importsFor hostileInput = plainCompiler.importsFor emptyInput) := by
  have ha : plainCompiler.compile hostileInput = .ok _ := rfl
  have hb : plainCompiler.compile emptyInput = .ok _ := rfl
  have hu (policy : String) : inject bareTemplate 0 policy = .ok _ := rfl
  refine ⟨_, _, _, ha, hb, hu _, compare_deployed_iff plainCompiler [] ha hb (hu _) ?_ ?_ ?_⟩
  · intro ms hms
    cases hms
    decide
  · intro group hgroup
    have hbare : groupAt? bareTemplate 0 = some (.obj [("type", .str groupType)]) := rfl
    cases hbare.symm.trans hgroup
    decide
  · decide +kernel

end Template

end ConfidentialPolicy

import ConfidentialPolicy.Proofs.Container
import ConfidentialPolicy.Proofs.PolicyText.Scanning

namespace ConfidentialPolicy

open Json PolicyText

namespace PolicyText

variable {header rest : List Char} {fs cs : List Json}

/-- A text with a list of imports and a list of containers, each after its marker. -/
def listsText (header : List Char) (fs cs : List Json) (style : Style) (rest : List Char) :
    List Char :=
  header ++ '\n' :: (fragmentsMarker.toList ++ (write .pretty 0 (.arr fs) ++
    '\n' :: '\n' :: (containersMarker.toList ++ (write style 0 (.arr cs) ++ rest))))

theorem afterFirst?_fragmentsMarker (hh : Text.occurs fragmentsMarker.toList header = false)
    (style : Style) : Text.afterFirst? fragmentsMarker.toList (listsText header fs cs style rest) =
      some (write .pretty 0 (.arr fs) ++
        '\n' :: '\n' :: (containersMarker.toList ++ (write style 0 (.arr cs) ++ rest))) := by
  rw [listsText, Text.afterFirst?_append_cons (by decide) (Text.occurs_eq_false_iff.mp hh)
    (by decide), Text.afterFirst?_append_self (by decide)]

/-- The marker of containers starts at none of the characters of the other marker. -/
theorem afterFirst?_containersMarker_fragmentsMarker (s : List Char) :
    Text.afterFirst? containersMarker.toList (fragmentsMarker.toList ++ s) =
      Text.afterFirst? containersMarker.toList s := rfl

theorem afterFirst?_containersMarker (hh : Text.occurs containersMarker.toList header = false)
    (hf : Text.occurs containersMarker.toList (write .pretty 0 (.arr fs)) = false)
    (style : Style) : Text.afterFirst? containersMarker.toList (listsText header fs cs style rest) =
      some (write style 0 (.arr cs) ++ rest) := by
  have hbreak : '\n' ∉ containersMarker.toList := by decide
  rw [listsText, Text.afterFirst?_append_cons (by decide) (Text.occurs_eq_false_iff.mp hh) hbreak,
    afterFirst?_containersMarker_fragmentsMarker,
    Text.afterFirst?_append_cons (by decide) (Text.occurs_eq_false_iff.mp hf) hbreak,
    ← List.nil_append ('\n' :: _), Text.afterFirst?_append_cons (by decide) rfl hbreak,
    Text.afterFirst?_append_self (by decide)]

theorem extractList_of_afterFirst? {text : List Char} {marker : String} {vs : List Json}
    {style : Style} (hvs : (Json.arr vs).Integral)
    (h : Text.afterFirst? marker.toList text = some (write style 0 (.arr vs) ++ rest)) :
    extractList text marker = .ok (write style 0 (.arr vs)) := by
  simp only [extractList, h, balancedList_write hvs]

theorem containers_listsText {text : String} {style : Style}
    (ht : text.toList = listsText header fs cs style rest)
    (hh : Text.occurs containersMarker.toList header = false)
    (hf : Text.occurs containersMarker.toList (write .pretty 0 (.arr fs)) = false)
    (hcs : (Json.arr cs).Plain maxDepth) : containers text = .ok cs := by
  have hfind : Text.afterFirst? containersMarker.toList (listsText header fs cs style rest) =
      some (write style 0 (.arr cs) ++ rest) := afterFirst?_containersMarker hh hf style
  rw [containers, ht, extractList_of_afterFirst? hcs.integral hfind]
  exact parseList_write hcs.integral hcs.canonical hcs.depth_le style 0

theorem fragments_listsText {text : String} {style : Style}
    (ht : text.toList = listsText header fs cs style rest)
    (hh : Text.occurs fragmentsMarker.toList header = false)
    (hfs : (Json.arr fs).Plain maxDepth) : fragments text = .ok fs := by
  obtain ⟨behind, hfind⟩ : ∃ behind, Text.afterFirst? fragmentsMarker.toList text.toList =
      some (write .pretty 0 (.arr fs) ++ behind) :=
    ⟨_, ht ▸ afterFirst?_fragmentsMarker hh style⟩
  have hoccurs : Text.occurs fragmentsMarker.toList text.toList = true := by
    rw [Text.occurs, hfind, Option.isSome_some]
  rw [fragments, if_pos hoccurs, extractList_of_afterFirst? hfs.integral hfind]
  exact parseList_write hfs.integral hfs.canonical hfs.depth_le .pretty 0

end PolicyText

theorem Json.toList_render {v : Json} (h : v.Canonical) (style : Style) :
    (v.render style).toList = write style 0 v := by
  rw [render, canonicalize_eq_self h, Json.text, String.toList_ofList]

namespace Document

theorem toList_pretty_fragmentsJson (d : Document) : d.fragmentsJson.pretty.toList =
    write .pretty 0 (.arr (d.fragments.map FragmentImport.toJson)) :=
  toList_render (FragmentImport.plain_listToJson d.fragments).canonical .pretty

theorem toList_compact_containersJson {d : Document} (h : d.Built) (omitId : Bool) :
    (d.containersJson omitId).compact.toList = write .compact 0 (.arr (d.records omitId)) :=
  toList_render (h.plain_containersJson omitId).canonical .compact

def policyHeaderLines : List Char := policyHeader.toList.dropLast

theorem toList_policyHeader : policyHeader.toList = policyHeaderLines ++ ['\n'] := by
  decide +kernel

theorem toList_policyText {d : Document} (h : d.Built) (omitId : Bool) :
    (d.policyText omitId).toList = listsText policyHeaderLines
      (d.fragments.map FragmentImport.toJson) (d.records omitId) .compact
      ('\n' :: '\n' :: policyFooter.toList) := by
  simp only [policyText, policyTextOf, String.toList_append, toList_pretty_fragmentsJson,
    toList_compact_containersJson h, toList_policyHeader, listsText, List.append_assoc,
    List.cons_append, List.nil_append]
  rfl

theorem scan_policyText {d : Document} (h : d.Built) (omitId : Bool)
    (hm : Text.occurs containersMarker.toList d.fragmentsJson.pretty.toList = false) :
    containersAndFragments (d.policyText omitId) =
      .ok (d.records omitId, d.fragments.map FragmentImport.toJson) := by
  rw [toList_pretty_fragmentsJson] at hm
  have hcs := containers_listsText (toList_policyText h omitId) (by decide +kernel) hm
    ((h.plain_containersJson omitId).mono (by decide))
  have hfs := fragments_listsText (toList_policyText h omitId) (by decide +kernel)
    ((FragmentImport.plain_listToJson d.fragments).mono (by decide))
  rw [containersAndFragments, hcs, hfs]
  rfl

/-- Scanning the text of a policy gives back the records and the imports of the document. -/
theorem containersAndFragments_policyText (d : Document) (h : d.Built) (omitId : Bool)
    (hm : Text.occurs containersMarker.toList d.fragmentsJson.pretty.toList = false) :
    ∃ cs fs, containersAndFragments (d.policyText omitId) = .ok (cs, fs) ∧
      d.containersJson omitId = .arr cs ∧ d.fragmentsJson = .arr fs :=
  ⟨d.records omitId, d.fragments.map FragmentImport.toJson, scan_policyText h omitId hm, rfl, rfl⟩

def hostileSpec : Json := .obj [
  ("id", .str "]\"containers := ["),
  ("containerImage", .str "\\\""),
  ("environmentVariables", .arr []),
  ("command", .arr [.str "fragments := [\n"]),
  ("signals", .arr [.num (.int minInt64)])]

def hostileContainer : Container where
  id := "]\"containers := ["
  image := "\\\""
  command := ["fragments := [\n"]
  workingDir := "/"
  envRules := []
  mounts := []
  elevated := true
  stdio := true
  execProcesses := []
  signals := [minInt64]
  layers := []
  kind := .plain

def hostileDocument : Document where
  containers := [hostileContainer.edit (.layers ["]", "\""])]
  fragments := [⟨"[\"", "]\\", 1, ["fragments := ["]⟩]
  pause := some pauseContainer

theorem built_hostileDocument : hostileDocument.Built := by
  have hspec : Container.ofSpec hostileSpec .plain {} = .ok hostileContainer := rfl
  refine ⟨fun c hc ↦ ?_, .inr rfl⟩
  rw [List.mem_singleton.mp hc]
  exact (Container.Built.ofSpec hspec).edit _

theorem containersAndFragments_hostileDocument :
    hostileDocument.Built ∧
    Text.occurs containersMarker.toList hostileDocument.fragmentsJson.pretty.toList = false ∧
    ∃ cs fs, containersAndFragments (hostileDocument.policyText false) = .ok (cs, fs) ∧
      hostileDocument.containersJson false = .arr cs ∧ hostileDocument.fragmentsJson = .arr fs := by
  have hm : Text.occurs containersMarker.toList hostileDocument.fragmentsJson.pretty.toList =
      false := by
    decide +kernel
  exact ⟨built_hostileDocument, hm,
    containersAndFragments_policyText hostileDocument built_hostileDocument false hm⟩

end Document

end ConfidentialPolicy

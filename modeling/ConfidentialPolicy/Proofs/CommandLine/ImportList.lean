import ConfidentialPolicy.Proofs.CommandLine.Commands
import ConfidentialPolicy.Proofs.Files
import ConfidentialPolicy.Proofs.Fragment.Import
import ConfidentialPolicy.Proofs.Json.Reading

namespace ConfidentialPolicy

open Json

namespace FragmentImport

theorem canonicalize_toJsonDeclared (i : FragmentImport) :
    i.toJsonDeclared.canonicalize = i.toJson := by
  have hincludes : (ofStrings i.includes).canonicalize = ofStrings i.includes :=
    canonicalize_eq_self (plain_ofStrings i.includes).canonical
  have hkeys : ["feed", "issuer", "minimum_svn", "includes"].Nodup := by decide
  simp only [toJsonDeclared, canonicalize, canonicalizeMembers, hincludes]
  exact congrArg obj (KeyMap.ofList_perm (.cons _ (@List.perm_append_comm _ [_, _] [_])) hkeys)

theorem integral_toJsonDeclared (i : FragmentImport) : i.toJsonDeclared.Integral := by
  have hincludes := (plain_ofStrings i.includes).integral
  simp [toJsonDeclared, integral_obj_iff, hincludes]

theorem depth_toJsonDeclared_le (i : FragmentImport) : i.toJsonDeclared.depth ≤ 2 := by
  have hincludes := (plain_ofStrings i.includes).depth_le
  refine depth_obj_le fun m hm ↦ ?_
  simp only [List.mem_cons, List.not_mem_nil, or_false] at hm
  rcases hm with rfl | rfl | rfl | rfl
  · exact Nat.zero_le 1
  · exact Nat.zero_le 1
  · exact Nat.zero_le 1
  · exact hincludes

def listText (imports : List FragmentImport) : String :=
  (Json.arr (imports.map toJsonDeclared)).text .pretty

theorem parse?_listText (imports : List FragmentImport) :
    parse? (listText imports) = some (listToJson imports) := by
  have hintegral : (Json.arr (imports.map toJsonDeclared)).Integral :=
    integral_arr_iff.mpr (List.forall_mem_map.mpr fun i _ ↦ integral_toJsonDeclared i)
  have hdepth : (Json.arr (imports.map toJsonDeclared)).depth ≤ 2 + 1 :=
    depth_arr_le (List.forall_mem_map.mpr fun i _ ↦ depth_toJsonDeclared_le i)
  rw [listText, text, parse?_write_of_integral hintegral (hdepth.trans (by decide)), canonicalize,
    canonicalizeItems_eq_map, List.map_map, listToJson]
  exact congrArg (some ∘ Json.arr) (List.map_congr_left fun i _ ↦ canonicalize_toJsonDeclared i)

theorem listOfJson_map_toJson (imports : List FragmentImport) :
    listOfJson (imports.map toJson) = .ok imports := by
  rw [listOfJson, Checked.mapM_eq_ok_iff, List.forall₂_map_left_iff, List.forall₂_same]
  exact fun i _ ↦ ofJson_toJson i

end FragmentImport

namespace CommandLine

open Attempt Checked

variable {s : Setup} {files after : Files} {q : ImportRequest} {path text : String} {list : Json}
  {i : FragmentImport} {old : List FragmentImport}

/-- The new list has the new import last, in place of those for its feed. -/
structure AddsImport (i : FragmentImport) (old new : List FragmentImport) : Prop where
  others : new.filter (·.feed ≠ i.feed) = old.filter (·.feed ≠ i.feed)
  own : new.filter (·.feed = i.feed) = [i]
  last : new.getLast? = some i

theorem addsImport_addImport (old : List FragmentImport) (i : FragmentImport) :
    AddsImport i old (addImport old i) := by
  refine ⟨?_, ?_, by simp [addImport]⟩
  · simp [addImport, List.filter_filter]
  · simp [addImport, List.filter_filter]

theorem readImports_of_template {value : Json} {vs : List Json} {imports : List FragmentImport}
    (h : readTemplate files path = .ok value) (hitems : listItems? value = some vs)
    (himports : FragmentImport.listOfJson vs = .ok imports) :
    readImports files path = .ok imports := by
  have hthere : files.contains path = true := by
    obtain ⟨content, hread, -⟩ := readTemplate_eq_ok_iff.mp h
    obtain ⟨p, hp, hnode⟩ := Files.read_eq_ok_iff.mp hread
    rw [Files.contains, hp]
    simp [hnode]
  rw [readImports, if_pos hthere]
  refine bind_eq_ok_iff.mpr ⟨value, h, ?_⟩
  rw [hitems]
  exact ofChecked_eq_ok_iff.mpr himports

def addingPlan (path : String) (old : List FragmentImport) (i : FragmentImport) : Plan :=
  .save path (FragmentImport.listText (addImport old i))
    (Layout.Lines.text (Layout.success ("import for " ++ i.feed ++ " saved to " ++ path)))

theorem importOf_eq_addingPlan (hpath : q.listFile = some path)
    (htext : files.read q.fragment = .ok text)
    (hi : (generateImport s.signer text q.feed q.chain q.minimumSvn).result = .ok i)
    (hold : readImports files path = .ok old) :
    importOf s files q = .ok (addingPlan path old i) := by
  refine bind_eq_ok_iff.mpr ⟨text, readText_eq_ok_iff.mpr htext, ?_⟩
  refine bind_eq_ok_iff.mpr ⟨i, ofChecked_eq_ok_iff.mpr hi, ?_⟩
  rw [hpath]
  exact bind_eq_ok_iff.mpr ⟨old, hold, rfl⟩

/-- An import was added to the list in a file, and no other file has changed. -/
structure ImportAdded (path : String) (i : FragmentImport) (list : Json)
    (old : List FragmentImport) (before after : Files) : Prop where
  rewritten : ∃ content, Files.Rewritten path content before after
  imports : ∃ new, readImports after path = .ok new ∧ AddsImport i old new
  /-- Other keys of an object stay just where there are none. -/
  kept_iff : ∃ value, readTemplate after path = .ok value ∧
    ((∀ key v, key ≠ "fragments" → list.get? key = some v → value.get? key = some v) ↔
      ∀ key, key ≠ "fragments" → list.get? key = none)

theorem importAdded_write (hlist : readTemplate files path = .ok list)
    (hw : files.write path (FragmentImport.listText (addImport old i)) = .ok after) :
    ImportAdded path i list old files after := by
  obtain ⟨content, hcontent, -⟩ := readTemplate_eq_ok_iff.mp hlist
  have hrewritten := Files.rewritten_write hcontent hw
  have hvalue : readTemplate after path = .ok (FragmentImport.listToJson (addImport old i)) :=
    readTemplate_eq_ok_iff.mpr
      ⟨_, hrewritten.read_same path rfl, FragmentImport.parse?_listText (addImport old i)⟩
  have himports :=
    readImports_of_template hvalue rfl (FragmentImport.listOfJson_map_toJson (addImport old i))
  refine ⟨⟨_, hrewritten⟩, ⟨_, himports, addsImport_addImport old i⟩, ⟨_, hvalue, ?_, ?_⟩⟩
  · intro hkept key hkey
    refine Option.eq_none_iff_forall_ne_some.mpr fun v hv ↦ ?_
    cases hkept key v hkey hv
  · intro hnone key v hkey hv
    rw [hnone key hkey] at hv
    cases hv

/-- Where an import can be made and the file holds a list, the import is added to it unless
something keeps the file from being written. -/
theorem importAdded_run (tools : Tools) (obstacles : Obstacles) {env : Environment}
    {words : List String} {r : Request} (hr : Request.ofWords? env words = some r)
    (hq : r.action = .importOf q) (hpath : q.listFile = some path)
    (hs : Setup.load tools files r.settings = .ok s) (htext : files.read q.fragment = .ok text)
    (hi : (generateImport s.signer text q.feed q.chain q.minimumSvn).result = .ok i)
    (hlist : readTemplate files path = .ok list) (hold : readImports files path = .ok old) :
    ((∀ content, obstacles path content = none) →
      ∃ a, (run tools env files words obstacles).answer = .ok a) ∧
    ∀ a, (run tools env files words obstacles).answer = .ok a →
      ImportAdded path i list old files (run tools env files words obstacles).files := by
  have himport := importOf_eq_addingPlan hpath htext hi hold
  have hplan : r.plan tools files = .ok (addingPlan path old i) :=
    bind_eq_ok_iff.mpr ⟨s, hs, by rw [hq, planFor, himport]⟩
  have hrun : run tools env files words obstacles =
      (addingPlan path old i).commit files obstacles := by
    simp only [run, plan, hr, hplan, Attempt.commit]
  rw [hrun]
  refine ⟨fun hfree ↦ ?_, fun a ha ↦ ?_⟩
  · obtain ⟨content, hcontent, -⟩ := readTemplate_eq_ok_iff.mp hlist
    obtain ⟨after, hafter⟩ :=
      Files.exists_write_of_read hcontent (FragmentImport.listText (addImport old i))
    simp [Plan.commit, addingPlan, Plan.save, Plan.writeFile, hfree, hafter]
  · exact importAdded_write hlist (Plan.write_of_commit_eq_ok rfl ha)

def listFiles (list : String) : Files where
  nodes := [(["f.rego"], .text "package app\n\nsvn := \"1\"\n"), (["list.json"], .text list)]
  here := []

def importRequest : ImportRequest where
  fragment := "f.rego"
  feed := "F"
  chain := "c.pem"
  minimumSvn := none
  listFile := some "list.json"

def echoSettings : Settings where
  debugMode := false
  sidecars := none
  layers := none
  fragmentIndex := none
  signProgram := "/bin/echo"
  pushProgram := "oras"
  reports := .table

def importWords : List String :=
  ["--sign-tool", "/bin/echo", "import", "--fragment", "f.rego", "--feed", "F", "--chain", "c.pem",
    "--fragments-json", "list.json"]

def madeImport : FragmentImport :=
  ⟨"F", "did:x509 -chain c.pem -policy CN", 1, FragmentImport.allParts⟩

def twoImports : List FragmentImport := [⟨"F", "i", 3, []⟩, ⟨"G", "i", 2, []⟩]

def twoImportsText : String :=
  "\x7b\"fragments\":[" ++
    "\x7b\"feed\":\"F\",\"issuer\":\"i\",\"minimum_svn\":\"3\",\"includes\":[]\x7d," ++
    "\x7b\"feed\":\"G\",\"issuer\":\"i\",\"minimum_svn\":\"2\",\"includes\":[]\x7d]\x7d"

theorem importAdded_run_twoImports :
    (∃ a, (run Tools.standard [] (listFiles twoImportsText) importWords .none).answer = .ok a) ∧
    ImportAdded "list.json" madeImport (.obj [("fragments", FragmentImport.listToJson twoImports)])
      twoImports (listFiles twoImportsText)
      (run Tools.standard [] (listFiles twoImportsText) importWords .none).files := by
  have hwords : Request.ofWords? [] importWords = some ⟨echoSettings, .importOf importRequest⟩ := by
    decide +kernel
  have hmade : (generateImport (Tools.standard.signer "/bin/echo") "package app\n\nsvn := \"1\"\n"
      "F" "c.pem" none).result = .ok madeImport := by decide +kernel
  have hlist : readTemplate (listFiles twoImportsText) "list.json" =
      .ok (.obj [("fragments", FragmentImport.listToJson twoImports)]) := by decide +kernel
  have hold : readImports (listFiles twoImportsText) "list.json" = .ok twoImports :=
    readImports_of_template hlist rfl (FragmentImport.listOfJson_map_toJson twoImports)
  obtain ⟨hsucceeds, hadded⟩ :=
    importAdded_run Tools.standard .none hwords rfl rfl rfl rfl hmade hlist hold
  obtain ⟨a, ha⟩ := hsucceeds fun _ ↦ rfl
  exact ⟨⟨a, ha⟩, hadded a ha⟩

def noContainersText : String := "\x7b\"containers\":[],\"fragments\":[]\x7d"

/-- An object loses its containers when an import is added to it. -/
theorem exists_lost_key : ∃ files list value,
    files = listFiles noContainersText ∧
    readTemplate files "list.json" = .ok list ∧ readImports files "list.json" = .ok [] ∧
    (run Tools.standard [] files importWords).answer =
      .ok ⟨"  ✓ import for F saved to list.json\n", .clean⟩ ∧
    readTemplate (run Tools.standard [] files importWords).files "list.json" = .ok value ∧
    list.get? "containers" = some (.arr []) ∧ value.get? "containers" = none := by
  have hlist : readTemplate (listFiles noContainersText) "list.json" =
      .ok (.obj [("containers", .arr []), ("fragments", .arr [])]) := by decide +kernel
  have hread : (run Tools.standard [] (listFiles noContainersText) importWords).files.read
      "list.json" = .ok (FragmentImport.listText [madeImport]) := by decide +kernel
  have hvalue := readTemplate_eq_ok_iff.mpr ⟨_, hread, FragmentImport.parse?_listText [madeImport]⟩
  refine ⟨_, _, _, rfl, hlist, readImports_of_template hlist rfl rfl, ?_, hvalue, rfl, rfl⟩
  decide +kernel

end CommandLine

end ConfidentialPolicy

import ConfidentialPolicy.Proofs.Json.Path
import ConfidentialPolicy.Proofs.Template

namespace ConfidentialPolicy.Template

open Json Checked

def HasGroupType (resource : Json) : Prop := ∃ ms type, resource = .obj ms ∧
  KeyMap.get? ms "type" = some (.str type) ∧ Text.sameLetters type groupType = true

/-- The places of the groups that were found are places of groups where policies are read and
written. -/
structure GroupsInUse (t : Json) (places : List Nat) : Prop where
  inRange : ∀ i ∈ places, ∃ group, (resources t)[i]? = some group ∧ HasGroupType group
  readable : ∀ defaults length i, policies t defaults ≠ .error (.outOfRange length i)
  intoGroup : ∀ n policy u, inject t n policy = .ok u → ∃ i group written, places[n]? = some i ∧
    (resources t)[i]? = some group ∧ HasGroupType group ∧
    resources u = (resources t).set i written

/-- Reading the policies goes out of range at a place: it is past the end of the resources, and the
policies of the groups before it can be read. -/
def RunsOut (t : Json) (places : List Nat) (defaults : List FragmentImport) (i : Nat) : Prop :=
  (resources t).length ≤ i ∧ ∃ before after, places = before ++ i :: after ∧
    ∀ j ∈ before, ∃ group p, (resources t)[j]? = some group ∧ policyOf group defaults = .ok p

variable {ms : Members} {rs : List Json} {t u : Json} {places : List Nat}

theorem isGroup_iff {resource : Json} : isGroup resource = true ↔ HasGroupType resource := by
  cases resource with
  | obj ms =>
    cases htype : KeyMap.get? ms "type" with
    | none => simp [isGroup, HasGroupType, get?, htype]
    | some v => cases v <;> simp [isGroup, HasGroupType, get?, str?, htype]
  | null | bool | num | str | arr => simp [isGroup, HasGroupType, get?]

theorem mem_placesOf_iff {i : Nat} :
    i ∈ placesOf rs ↔ ∃ group, rs[i]? = some group ∧ HasGroupType group := by
  simp only [← isGroup_iff]
  rw [placesOf, List.mem_filter, List.mem_range]
  constructor
  · rintro ⟨-, h⟩
    cases hgroup : rs[i]? with
    | none =>
      rw [hgroup] at h
      cases h
    | some group =>
      rw [hgroup] at h
      exact ⟨group, rfl, h⟩
  · rintro ⟨group, hgroup, h⟩
    refine ⟨(List.getElem?_eq_some_iff.mp hgroup).1, ?_⟩
    rw [hgroup]
    exact h

theorem resources_obj (h : KeyMap.get? ms "resources" = some (.arr rs)) :
    resources (.obj ms) = rs := by
  rw [resources, get?, h]
  rfl

theorem resources_of_usualSpelling (h : groupPlaces (.obj ms) = .ok places)
    (hr : UsualSpelling "resources" ms) : places = placesOf (resources (.obj ms)) := by
  obtain ⟨ns, rs, hms, hfind, rfl⟩ := groupPlaces_eq_ok h
  cases hms
  rw [find?_eq_get?_spelling, hr.spelling_eq] at hfind
  rw [resources_obj hfind]

theorem resources_inject {n : Nat} {policy : String} (hplaces : groupPlaces t = .ok places)
    (hu : inject t n policy = .ok u) : ∃ i group written, places[n]? = some i ∧
      (resources t)[i]? = some group ∧ resources u = (resources t).set i written := by
  obtain ⟨found, i, ms, rs, group, written, hfound, hi, rfl, hrs, hgroup, -, rfl⟩ :=
    inject_eq_ok hu
  cases hplaces.symm.trans hfound
  refine ⟨i, .obj group, .obj written, hi, ?_, ?_⟩
  · rw [resources_obj hrs, hgroup]
  · rw [resources_obj hrs, resources_obj (KeyMap.get?_insert_self _ _ _)]

theorem malformedOnly_encodedPolicy (group : Json) : MalformedOnly (encodedPolicy group) := by
  refine malformedOnly_bind (Fields.malformedOnly_ofJson group _) fun fields ↦ ?_
  refine malformedOnly_bind (fields.malformedOnly_object _ _) fun properties ↦ ?_
  cases properties with
  | none => exact malformedOnly_ok none
  | some properties =>
    refine malformedOnly_bind (properties.malformedOnly_object _ _) fun confidential ↦ ?_
    cases confidential with
    | none => exact malformedOnly_ok none
    | some confidential => exact malformedOnly_ok _

theorem malformedOnly_decodeText (text : String) : MalformedOnly (decodeText text) := by
  unfold decodeText
  split
  · exact malformedOnly_error rfl
  · split
    · exact malformedOnly_error rfl
    · exact malformedOnly_ok _

theorem malformedOnly_policyOf (group : Json) (defaults : List FragmentImport) :
    MalformedOnly (policyOf group defaults) := by
  refine malformedOnly_bind (malformedOnly_encodedPolicy group) fun encoded ↦ ?_
  split
  · split
    · exact malformedOnly_ok _
    · refine malformedOnly_bind (malformedOnly_decodeText _) fun text ↦ ?_
      split
      · exact malformedOnly_error rfl
      · exact malformedOnly_ok _
  · exact malformedOnly_ok _

theorem policies_eq_outOfRange_iff {defaults : List FragmentImport} {length i : Nat}
    (h : groupPlaces t = .ok places) : policies t defaults = .error (.outOfRange length i) ↔
      length = (resources t).length ∧ RunsOut t places defaults i := by
  unfold policies
  rw [h]
  change places.mapM _ = _ ↔ _
  rw [mapM_eq_error_iff]
  constructor
  · rintro ⟨before, j, after, rfl, hbefore, hj⟩
    split at hj
    · -- A group that is in range is refused as malformed, if at all.
      next group _ => cases malformedOnly_policyOf group defaults _ hj
    · next hnone =>
      cases hj
      refine ⟨rfl, List.getElem?_eq_none_iff.mp hnone, before, after, rfl, fun k hk ↦ ?_⟩
      obtain ⟨p, hp⟩ := hbefore k hk
      split at hp
      · next group hgroup => exact ⟨group, p, hgroup, hp⟩
      · cases hp
  · rintro ⟨rfl, hlength, before, after, rfl, hbefore⟩
    refine ⟨before, i, after, rfl, fun k hk ↦ ?_, ?_⟩
    · obtain ⟨group, p, hgroup, hp⟩ := hbefore k hk
      rw [hgroup]
      exact ⟨p, hp⟩
    · rw [List.getElem?_eq_none hlength]

theorem groupsInUse (h : groupPlaces (.obj ms) = .ok places) (hr : UsualSpelling "resources" ms) :
    GroupsInUse (.obj ms) places := by
  have hplaces := resources_of_usualSpelling h hr
  have hgroup : ∀ i ∈ places, ∃ group, (resources (.obj ms))[i]? = some group ∧
      HasGroupType group := by
    intro i hi
    rw [hplaces] at hi
    exact mem_placesOf_iff.mp hi
  refine ⟨hgroup, ?_, ?_⟩
  · intro defaults length i hout
    obtain ⟨-, hlength, before, after, hsplit, -⟩ := (policies_eq_outOfRange_iff h).mp hout
    obtain ⟨group, hi, -⟩ := hgroup i (by simp [hsplit])
    exact absurd (List.getElem?_eq_some_iff.mp hi).1 (Nat.not_lt.mpr hlength)
  · intro n policy u hu
    obtain ⟨i, group, written, hi, hbefore, hafter⟩ := resources_inject h hu
    obtain ⟨group', hbefore', htype⟩ := hgroup i (List.mem_of_getElem? hi)
    cases hbefore.symm.trans hbefore'
    exact ⟨i, group, written, hi, hbefore, htype, hafter⟩

/-- The groups that are found are in use where the key of the resources is spelled in the usual way
only, and where reading the policies goes out of range it does so at the first place that is past
the end. -/
theorem groupsInUse_or_runsOut (h : groupPlaces t = .ok places) :
    ((∀ ms, t = .obj ms → UsualSpelling "resources" ms) → GroupsInUse t places) ∧
      ∀ defaults length i, policies t defaults = .error (.outOfRange length i) ↔
        length = (resources t).length ∧ RunsOut t places defaults i := by
  refine ⟨fun hr ↦ ?_, fun defaults length i ↦ policies_eq_outOfRange_iff h⟩
  obtain ⟨ms, rs, rfl, -, -⟩ := groupPlaces_eq_ok h
  exact groupsInUse h (hr ms rfl)

def smallTemplate : Json := .obj [("resources", .arr [
  .obj [("type", .str "Microsoft.Storage/storageAccounts")],
  .obj [("type", .str "microsoft.containerinstance/containergroups")]])]

def capitalTemplate : Json := .obj [("Resources", .arr [.obj [("type", .str groupType)]])]

def crossedTemplate : Json := .obj [
  ("RESOURCES", .arr [.obj [("type", .str groupType)]]),
  ("resources", .arr [.obj [("type", .str "Microsoft.Storage/storageAccounts")]])]

theorem groupsInUse_smallTemplate : GroupsInUse smallTemplate [1] ∧
    policies capitalTemplate [] = .error (.outOfRange 0 0) := by
  have hsmall : groupPlaces smallTemplate = .ok [1] := rfl
  have hcapital : groupPlaces capitalTemplate = .ok [0] := rfl
  refine ⟨(groupsInUse_or_runsOut hsmall).1 ?_, ?_⟩
  · rintro ms ⟨⟩
    decide
  · refine ((groupsInUse_or_runsOut hcapital).2 [] 0 0).mpr ?_
    exact ⟨rfl, Nat.le_refl 0, [], [], rfl, List.forall_mem_nil _⟩

/-- A place may be past the end of the resources, and it may be the place of a storage account, to
which a policy is then written. -/
theorem exists_misplaced_group :
    (groupPlaces capitalTemplate = .ok [0] ∧ resources capitalTemplate = [] ∧
      policies capitalTemplate [] = .error (.outOfRange 0 0)) ∧
    groupPlaces crossedTemplate = .ok [0] ∧ ∃ account u,
      (resources crossedTemplate)[0]? = some account ∧ ¬ HasGroupType account ∧
      inject crossedTemplate 0 "policy" = .ok u ∧
      u.at? [.key "resources", .index 0, .key "properties", .key "confidentialComputeProperties",
        .key "ccePolicy"] = some (.str "policy") := by
  refine ⟨⟨rfl, rfl, rfl⟩, rfl, _, _, rfl, ?_, rfl, rfl⟩
  rw [← isGroup_iff]
  decide

end ConfidentialPolicy.Template

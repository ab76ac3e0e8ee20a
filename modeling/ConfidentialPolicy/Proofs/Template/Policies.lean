import ConfidentialPolicy.Proofs.Json.Value
import ConfidentialPolicy.Proofs.Template

namespace ConfidentialPolicy.Template

open Json Checked

variable {ms : Members} {key : String}

/-- A new value is found under a key just where the key is spelled in the usual way first. -/
theorem find?_insert_of_get? (hs : KeyMap.Sorted ms) {old : Json}
    (h : KeyMap.get? ms key = some old) (v : Json) :
    Fields.find? ⟨KeyMap.insert key v ms⟩ key =
      if spelling ms key = key then some v else Fields.find? ⟨ms⟩ key := by
  induction ms with
  | nil => cases h
  | cons m ms ih =>
    obtain ⟨k, w⟩ := m
    rw [KeyMap.get?_cons] at h
    rw [KeyMap.insert, spelling_cons]
    by_cases hkey : key = k
    · subst hkey
      rw [if_neg (String.lt_irrefl _), if_pos rfl, Fields.find?_cons,
        if_pos (Text.sameLetters_refl _), if_pos (Text.sameLetters_refl _), if_pos rfl]
    · rw [if_neg hkey] at h
      have hafter : ¬ key < k := fun hlt ↦
        String.lt_irrefl key (String.lt_trans hlt (hs.head_lt _ (KeyMap.mem_of_get?_eq_some h)))
      rw [if_neg hafter, if_neg hkey, Fields.find?_cons, Fields.find?_cons]
      by_cases hsame : Text.sameLetters k key = true
      · rw [if_pos hsame, if_pos hsame, if_pos hsame, if_neg (Ne.symm hkey)]
      · rw [if_neg hsame, if_neg hsame, if_neg hsame, ih hs.tail h]

theorem groupPlaces_congr {ns : Members}
    (h : Fields.find? ⟨ms⟩ "resources" = Fields.find? ⟨ns⟩ "resources") :
    groupPlaces (.obj ms) = groupPlaces (.obj ns) := by
  have hget : Fields.get? ⟨ms⟩ "resources" = Fields.get? ⟨ns⟩ "resources" := by
    rw [Fields.get?, Fields.get?, h]
  refine Agree.bind_eq (r := fun f g ↦ f = ⟨ms⟩ ∧ g = ⟨ns⟩) (.ok ⟨rfl, rfl⟩) ?_
  rintro _ _ ⟨rfl, rfl⟩
  rw [Fields.list_congr hget]

/-- Resources of the same types have their groups at the same places, under whatever key the groups
are looked up. -/
theorem groupPlaces_insert {rs ss : List Json} (hs : KeyMap.Sorted ms)
    (h : KeyMap.get? ms "resources" = some (.arr rs)) (hplaces : placesOf ss = placesOf rs) :
    groupPlaces (.obj (KeyMap.insert "resources" (.arr ss) ms)) = groupPlaces (.obj ms) := by
  have hfind := find?_insert_of_get? hs h (.arr ss)
  by_cases hspelling : spelling ms "resources" = "resources"
  · have hbefore : Fields.find? ⟨ms⟩ "resources" = some (.arr rs) := by
      rw [find?_eq_get?_spelling, hspelling, h]
    rw [if_pos hspelling] at hfind
    rw [groupPlaces_obj hfind, groupPlaces_obj hbefore, hplaces]
  · rw [if_neg hspelling] at hfind
    exact groupPlaces_congr hfind

theorem groupPlaces_inject {t u : Json} {n : Nat} {policy : String} (ht : t.Canonical)
    (hu : inject t n policy = .ok u) : groupPlaces u = groupPlaces t := by
  obtain ⟨places, i, ms, rs, group, written, -, -, rfl, hrs, hgroup, hw, rfl⟩ := inject_eq_ok hu
  exact groupPlaces_insert (canonical_obj_iff.mp ht).1 hrs
    (placesOf_set hgroup (isGroup_writePolicy hw))

theorem exists_place_inject {t u : Json} {n : Nat} {policy : String} (ht : t.Canonical)
    (hu : inject t n policy = .ok u) (hc : ∀ group, groupAt? t n = some (.obj group) →
      UsualFirst "ccePolicy" (confidentialOf group)) :
    ∃ places i group, groupPlaces u = .ok places ∧ places[n]? = some i ∧
      (resources u)[i]? = some group ∧ encodedPolicy group = .ok (some (.str policy)) := by
  have hsame := groupPlaces_inject ht hu
  obtain ⟨places, i, ms, rs, group, written, hplaces, hi, rfl, hrs, hgroup, hw, rfl⟩ :=
    inject_eq_ok hu
  have hat : groupAt? (.obj ms) n = some (.obj group) := by
    simp [groupAt?, hplaces, hi, resources, get?, hrs, items?, hgroup]
  have hlt : i < rs.length := (List.getElem?_eq_some_iff.mp hgroup).1
  refine ⟨places, i, .obj written, hsame.trans hplaces, hi, ?_,
    encodedPolicy_writePolicy hw (hc group hat)⟩
  simp [resources, get?, KeyMap.get?_insert, items?, hlt]

theorem policies_eq_ok {t : Json} {defaults : List FragmentImport} {ps : List DeployedPolicy}
    (h : policies t defaults = .ok ps) {places : List Nat} (hplaces : groupPlaces t = .ok places)
    {n i : Nat} (hi : places[n]? = some i) {group : Json} (hgroup : (resources t)[i]? = some group) :
    ∃ p, ps[n]? = some p ∧ policyOf group defaults = .ok p := by
  obtain ⟨found, hfound, h⟩ := bind_eq_ok_iff.mp h
  cases hplaces.symm.trans hfound
  obtain ⟨p, hp, hread⟩ := exists_getElem?_of_mapM h hi
  rw [hgroup] at hread
  exact ⟨p, hp, hread⟩

theorem toList_ne_nil_of_scan {text : String} {lists : List Json × List Json}
    (h : PolicyText.containersAndFragments text = .ok lists) : text.toList ≠ [] := by
  intro he
  rw [String.toList_eq_nil_iff.mp he] at h
  cases h

/-- The policy that was written into a group is the policy that is read back for it, unless another
spelling of the key of the policy comes first. -/
theorem getElem?_policies_inject {t u : Json} {n : Nat} {text : String} {cs fs : List Json}
    {defaults : List FragmentImport} {ps : List DeployedPolicy} (ht : t.Canonical)
    (hj : Json.parse? text = none) (hs : PolicyText.containersAndFragments text = .ok (cs, fs))
    (hu : inject t n (encodeText text) = .ok u) (hps : policies u defaults = .ok ps)
    (hc : ∀ group, groupAt? t n = some (.obj group) →
      UsualFirst "ccePolicy" (confidentialOf group)) : ps[n]? = some ⟨cs, fs⟩ := by
  obtain ⟨places, i, group, hplaces, hi, hgroup, hpolicy⟩ := exists_place_inject ht hu hc
  obtain ⟨p, hp, hread⟩ := policies_eq_ok hps hplaces hi hgroup
  rw [policyOf_of_encoded hpolicy (toList_ne_nil_of_scan hs) hj, scan, hs] at hread
  cases hread
  exact hp

def respelledTemplate : Json := .obj [
  ("RESOURCES", .arr [.null, .obj [("type", .str "microsoft.containerinstance/CONTAINERGROUPS")]]),
  ("resources", .arr [.null, .obj [
    ("PROPERTIES", .obj [("confidentialcomputeproperties", .obj [("ccepolicy", .str "")])]),
    ("properties", .null)]])]

def shadowedTemplate : Json := .obj [("resources", .arr [.obj [
  ("properties", .obj [("confidentialComputeProperties", .obj [("CCEPolicy", .str "")])]),
  ("type", .str groupType)]])]

def numbersText : String := "fragments := [1]\ncontainers := [2]\n"

theorem canonical_respelledTemplate : respelledTemplate.Canonical := by
  rw [← show respelledTemplate.canonicalize = respelledTemplate by decide +kernel]
  exact canonical_canonicalize respelledTemplate

theorem getElem?_policies_respelledTemplate : ∃ u ps,
    inject respelledTemplate 0 (encodeText numbersText) = .ok u ∧ policies u [] = .ok ps ∧
    ps[0]? = some ⟨[.num (.int 2)], [.num (.int 1)]⟩ := by
  obtain ⟨u, ps, hu, hps⟩ : ∃ u ps, inject respelledTemplate 0 (encodeText numbersText) = .ok u ∧
      policies u [] = .ok ps :=
    ⟨_, [⟨[.num (.int 2)], [.num (.int 1)]⟩], rfl, by decide +kernel⟩
  have hj : Json.parse? numbersText = none := by decide +kernel
  have hs : PolicyText.containersAndFragments numbersText =
      .ok ([.num (.int 2)], [.num (.int 1)]) := by
    decide +kernel
  refine ⟨u, ps, hu, hps, getElem?_policies_inject canonical_respelledTemplate hj hs hu hps
    fun group hgroup ↦ ?_⟩
  have hat : groupAt? respelledTemplate 0 = some (.obj _) := rfl
  cases hat.symm.trans hgroup
  decide

/-- A policy is written beside one whose key comes first, and the latter is still read. -/
theorem exists_shadowed_policy : ∃ u,
    inject shadowedTemplate 0 (encodeText numbersText) = .ok u ∧
    Json.parse? numbersText = none ∧
    PolicyText.containersAndFragments numbersText = .ok ([.num (.int 2)], [.num (.int 1)]) ∧
    policies u [] = .ok [⟨[], []⟩] := by
  refine ⟨_, rfl, ?_, ?_, ?_⟩ <;> decide +kernel

end ConfidentialPolicy.Template

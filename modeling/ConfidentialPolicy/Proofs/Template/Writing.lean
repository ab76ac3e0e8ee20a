import ConfidentialPolicy.Proofs.Json.Path
import ConfidentialPolicy.Proofs.Template.Policies

namespace ConfidentialPolicy.Template

open Json Checked

/-- The key of an object for a name in any letters: the first spelling that it has, or the name
itself if it has none. -/
inductive SpelledAs (ms : Members) (name : String) : String → Prop
  | existing {k : String} {v : Json} (mem : (k, v) ∈ ms) (same : Text.sameLetters k name = true)
      (first : ∀ m ∈ ms, Text.sameLetters m.1 name = true → k ≤ m.1) : SpelledAs ms name k
  | new (missing : ∀ m ∈ ms, ¬ Text.sameLetters m.1 name = true) : SpelledAs ms name name

def policyPlace (i : Nat) (properties confidential : String) : List Step :=
  [.key "resources", .index i, .key properties, .key confidential, .key "ccePolicy"]

/-- A policy was written at one place. The keys on the way to it are those of the template, or are
made together with the objects under them. -/
structure WrittenAt (t u : Json) (n : Nat) (policy : String) (i : Nat)
    (properties confidential : String) : Prop where
  isPlace : ∃ places, groupPlaces t = .ok places ∧ places[n]? = some i
  inGroup : ∃ ms, t.at? [.key "resources", .index i] = some (.obj ms) ∧
    SpelledAs ms "properties" properties
  inProperties : ∃ ms,
    (t.at? [.key "resources", .index i, .key properties]).getD (.obj []) = .obj ms ∧
    SpelledAs ms "confidentialComputeProperties" confidential
  inConfidential : ∃ ms, (t.at? [.key "resources", .index i, .key properties,
    .key confidential]).getD (.obj []) = .obj ms
  written : u.at? (policyPlace i properties confidential) = some (.str policy)
  same : SameApartFrom (policyPlace i properties confidential) t u
  canonical : u.Canonical

variable {ms : Members} {key : String} {t u w : Json} {n m : Nat} {policy : String}

theorem spelledAs_spelling (hs : KeyMap.Sorted ms) (name : String) :
    SpelledAs ms name (spelling ms name) := by
  induction ms with
  | nil => exact .new (List.forall_mem_nil _)
  | cons p ms ih =>
    obtain ⟨k, v⟩ := p
    rw [spelling_cons]
    split
    · next hk =>
      refine .existing List.mem_cons_self hk fun m hm _ ↦ ?_
      rcases List.mem_cons.mp hm with rfl | hm
      · exact String.le_refl _
      · exact String.not_lt.mp (String.lt_asymm (hs.head_lt m hm))
    · next hk =>
      have hrest := ih hs.tail
      generalize spelling ms name = key at hrest ⊢
      cases hrest with
      | existing mem same first =>
        refine .existing (List.mem_cons_of_mem _ mem) same fun m hm hsame ↦ ?_
        rcases List.mem_cons.mp hm with rfl | hm
        · exact absurd hsame hk
        · exact first m hm hsame
      | new missing => exact .new (List.forall_mem_cons.mpr ⟨hk, missing⟩)

/-- An object that was changed is changed once more as it would have been before. -/
theorem updateObject_of_updateObject {f g g' : Members → Checked Members} {ns : Members}
    (h : updateObject ms key f = .ok ns)
    (hg : ∀ inner, f (child ms key) = .ok inner → g inner = g' (child ms key)) :
    updateObject ns key g = updateObject ms key g' := by
  have hobject := object_of_updateObject h
  obtain ⟨inner, hinner, rfl⟩ := updateObject_eq_ok h
  have hspelling := spelling_insert_spelling ms key (.obj inner)
  have hself : (KeyMap.get? (KeyMap.insert (spelling ms key) (.obj inner) ms)
      (spelling (KeyMap.insert (spelling ms key) (.obj inner) ms) key)).getD (.obj []) =
        .obj inner := by
    rw [hspelling, KeyMap.get?_insert_self, Option.getD_some]
  rw [updateObject_of_object hself, updateObject_of_object hobject, hspelling, hg inner hinner]
  simp only [KeyMap.insert_insert]

theorem writePolicy_of_writePolicy {group written : Members}
    (h : writePolicy group policy = .ok written) (other : String) :
    writePolicy written other = writePolicy group other := by
  refine updateObject_of_updateObject h fun properties hproperties ↦ ?_
  refine updateObject_of_updateObject hproperties fun confidential hconfidential ↦ ?_
  cases hconfidential
  rw [KeyMap.insert_insert]

theorem inject_of_group {places : List Nat} {i : Nat} {rs : List Json} {group : Members}
    (hplaces : groupPlaces (.obj ms) = .ok places) (hi : places[n]? = some i)
    (hrs : KeyMap.get? ms "resources" = some (.arr rs)) (hgroup : rs[i]? = some (.obj group))
    (policy : String) : inject (.obj ms) n policy = writePolicy group policy >>= fun written ↦
      .ok (.obj (KeyMap.insert "resources" (.arr (rs.set i (.obj written))) ms)) := by
  simp only [inject, hplaces, ok_bind, hi, hrs, hgroup]
  rfl

theorem inject_of_inject (ht : t.Canonical) (hu : inject t n policy = .ok u) (other : String) :
    inject u n other = inject t n other := by
  have hplacesU := groupPlaces_inject ht hu
  obtain ⟨places, i, ms, rs, group, written, hplaces, hi, rfl, hrs, hgroup, hw, rfl⟩ :=
    inject_eq_ok hu
  have hlt : i < rs.length := (List.getElem?_eq_some_iff.mp hgroup).1
  have hrsU := KeyMap.get?_insert_self "resources" (.arr (rs.set i (.obj written))) ms
  have hgroupU : (rs.set i (.obj written))[i]? = some (.obj written) :=
    List.getElem?_set_self hlt
  rw [inject_of_group (hplacesU.trans hplaces) hi hrsU hgroupU,
    inject_of_group hplaces hi hrs hgroup, writePolicy_of_writePolicy hw]
  simp only [KeyMap.insert_insert, List.set_set]

theorem nodup_of_groupPlaces {places : List Nat} (h : groupPlaces t = .ok places) :
    places.Nodup := by
  obtain ⟨ms, rs, -, -, rfl⟩ := groupPlaces_eq_ok h
  exact List.nodup_range.filter _

theorem inject_beside {places : List Nat} {i j : Nat} {rs : List Json} {before : Json}
    {group written : Members} (hplaces : groupPlaces
      (.obj (KeyMap.insert "resources" (.arr (rs.set i before)) ms)) = .ok places)
    (hj : places[m]? = some j) (hij : i ≠ j) (hgroup : rs[j]? = some (.obj group))
    (hw : writePolicy group policy = .ok written) :
    inject (.obj (KeyMap.insert "resources" (.arr (rs.set i before)) ms)) m policy =
      .ok (.obj (KeyMap.insert "resources" (.arr ((rs.set i before).set j (.obj written))) ms)) := by
  have hrs := KeyMap.get?_insert_self "resources" (.arr (rs.set i before)) ms
  have hgroup' : (rs.set i before)[j]? = some (.obj group) := by
    rw [List.getElem?_set_ne hij, hgroup]
  rw [inject_of_group hplaces hj hrs hgroup', hw]
  simp only [KeyMap.insert_insert]
  rfl

theorem exists_inject_of_inject {other : String} (ht : t.Canonical) (hnm : n ≠ m)
    (hu : inject t n policy = .ok u) (hw : inject t m other = .ok w) :
    ∃ x, inject u m other = .ok x ∧ inject w n policy = .ok x := by
  have hplacesU := groupPlaces_inject ht hu
  have hplacesW := groupPlaces_inject ht hw
  obtain ⟨places, i, ms, rs, group, written, hplaces, hi, rfl, hrs, hgroup, hp, rfl⟩ :=
    inject_eq_ok hu
  obtain ⟨places', j, ms', rs', group', written', hplaces', hj, hms, hrs', hgroup', hq, rfl⟩ :=
    inject_eq_ok hw
  cases hms
  cases hplaces.symm.trans hplaces'
  cases hrs.symm.trans hrs'
  have hij : i ≠ j := by
    rintro rfl
    have hlt : n < places.length := (List.getElem?_eq_some_iff.mp hi).1
    exact hnm ((List.getElem?_inj hlt (nodup_of_groupPlaces hplaces)).mp (hi.trans hj.symm))
  refine ⟨_, inject_beside (hplacesU.trans hplaces) hj hij hgroup' hq, ?_⟩
  rw [inject_beside (hplacesW.trans hplaces) hi hij.symm hgroup hp, List.set_comm _ _ hij]

theorem at?_group {i : Nat} {rs : List Json} {group : Json}
    (hrs : KeyMap.get? ms "resources" = some (.arr rs)) (hgroup : rs[i]? = some group) :
    (Json.obj ms).at? [.key "resources", .index i] = some group := by
  rw [at?_cons, part?, hrs, Option.bind_some, at?_cons, part?, hgroup]
  rfl

theorem writtenAt_of_group {places : List Nat} {i : Nat} {rs : List Json}
    {group properties confidential : Members} {p c : String} (ht : (Json.obj ms).Canonical)
    (hplaces : groupPlaces (.obj ms) = .ok places) (hi : places[n]? = some i)
    (hrs : KeyMap.get? ms "resources" = some (.arr rs)) (hgroup : rs[i]? = some (.obj group))
    (hp : p = spelling group "properties")
    (hproperties : (KeyMap.get? group p).getD (.obj []) = .obj properties)
    (hc : c = spelling properties "confidentialComputeProperties")
    (hconfidential : (KeyMap.get? properties c).getD (.obj []) = .obj confidential) :
    WrittenAt (.obj ms) (.obj (KeyMap.insert "resources" (.arr (rs.set i (.obj (KeyMap.insert p
      (.obj (KeyMap.insert c (.obj (KeyMap.insert "ccePolicy" (.str policy) confidential))
        properties)) group)))) ms)) n policy i p c := by
  -- Each object on the way is canonical, as it is a part of the template or a new one.
  have hresources : (Json.arr rs).Canonical :=
    (canonical_obj_iff.mp ht).2 _ (KeyMap.mem_of_get?_eq_some hrs)
  have hbefore := canonical_arr_iff.mp hresources _ (List.mem_of_getElem? hgroup)
  have hbeforeP := hproperties ▸ canonical_getD_get? hbefore p
  have hbeforeC := hconfidential ▸ canonical_getD_get? hbeforeP c
  have hlt : i < rs.length := (List.getElem?_eq_some_iff.mp hgroup).1
  have hat := at?_group hrs hgroup
  have hatP := (getD_at?_concat (by rw [hat, Option.getD_some]) p).trans hproperties
  exact {
    isPlace := ⟨places, hplaces, hi⟩
    inGroup := ⟨group, hat, hp ▸ spelledAs_spelling (canonical_obj_iff.mp hbefore).1 _⟩
    inProperties :=
      ⟨properties, hatP, hc ▸ spelledAs_spelling (canonical_obj_iff.mp hbeforeP).1 _⟩
    inConfidential := ⟨confidential, (getD_at?_concat hatP c).trans hconfidential⟩
    written := by simp [policyPlace, at?_cons, part?, KeyMap.get?_insert, hlt]
    same := by
      refine SameApartFrom.insert (SameApartFrom.set ?_ hgroup) (by rw [hrs, Option.getD_some])
      refine SameApartFrom.insert (SameApartFrom.insert ?_ hconfidential) hproperties
      exact (sameApartFrom_nil _ _).insert rfl
    canonical := by
      have hinner := hbeforeP.insert (hbeforeC.insert (canonical_str policy) "ccePolicy") c
      exact ht.insert (hresources.set (hbefore.insert hinner p) i) "resources" }

theorem exists_writtenAt (ht : t.Canonical) (hu : inject t n policy = .ok u) :
    ∃ i properties confidential, WrittenAt t u n policy i properties confidential := by
  obtain ⟨places, i, ms, rs, group, written, hplaces, hi, rfl, hrs, hgroup, hw, rfl⟩ :=
    inject_eq_ok hu
  have hproperties := object_of_updateObject hw
  obtain ⟨properties, hinner, rfl⟩ := updateObject_eq_ok hw
  have hconfidential := object_of_updateObject hinner
  obtain ⟨confidential, hpolicy, rfl⟩ := updateObject_eq_ok hinner
  cases hpolicy
  exact ⟨i, _, _,
    writtenAt_of_group ht hplaces hi hrs hgroup rfl hproperties rfl hconfidential⟩

/-- A write changes one place, another write to the same group leaves nothing of it, and it commutes
with a write to another group. -/
theorem inject_wellBehaved (ht : t.Canonical) (hu : inject t n policy = .ok u) :
    (∃ i properties confidential, WrittenAt t u n policy i properties confidential) ∧
      (∀ other, inject u n other = inject t n other) ∧
      ∀ m other w, n ≠ m → inject t m other = .ok w →
        ∃ x, inject u m other = .ok x ∧ inject w n policy = .ok x := by
  refine ⟨exists_writtenAt ht hu, fun other ↦ inject_of_inject ht hu other, ?_⟩
  intro m other w hnm hw
  exact exists_inject_of_inject ht hnm hu hw

def mixedTemplate : Json := .obj [
  ("outputs", .obj []),
  ("resources", .arr [
    .obj [("PROPERTIES", .obj [
        ("ConfidentialComputeProperties", .obj [("CCEPolicy", .null), ("isolation", .null)]),
        ("confidentialComputeProperties", .null)]),
      ("properties", .bool true), ("type", .str groupType)],
    .null,
    .obj [("name", .str "second"), ("type", .str groupType)]])]

theorem canonical_mixedTemplate : mixedTemplate.Canonical := by
  rw [← show mixedTemplate.canonicalize = mixedTemplate by decide +kernel]
  exact canonical_canonicalize mixedTemplate

theorem inject_wellBehaved_mixedTemplate : ∃ u w,
    inject mixedTemplate 0 "first" = .ok u ∧ inject mixedTemplate 1 "second" = .ok w ∧
    (∃ i properties confidential,
      WrittenAt mixedTemplate u 0 "first" i properties confidential) ∧
    (∀ other, inject u 0 other = inject mixedTemplate 0 other) ∧
    ∃ x, inject u 1 "second" = .ok x ∧ inject w 0 "first" = .ok x := by
  obtain ⟨u, hu⟩ : ∃ u, inject mixedTemplate 0 "first" = .ok u := ⟨_, rfl⟩
  obtain ⟨w, hw⟩ : ∃ w, inject mixedTemplate 1 "second" = .ok w := ⟨_, rfl⟩
  obtain ⟨hplace, hlast, hcomm⟩ := inject_wellBehaved canonical_mixedTemplate hu
  exact ⟨u, w, hu, hw, hplace, hlast, hcomm 1 "second" w Nat.zero_ne_one hw⟩

end ConfidentialPolicy.Template

import ConfidentialPolicy.Proofs.Checked
import ConfidentialPolicy.Proofs.Encoding
import ConfidentialPolicy.Proofs.Fields
import ConfidentialPolicy.Proofs.Json.Value
import ConfidentialPolicy.Proofs.KeyMap
import ConfidentialPolicy.Template

namespace ConfidentialPolicy

namespace Template

open Json Checked

def UsualSpelling (key : String) (ms : Members) : Prop :=
  ∀ m ∈ ms, Text.sameLetters m.1 key = true → m.1 = key

instance (key : String) (ms : Members) : Decidable (UsualSpelling key ms) :=
  inferInstanceAs (Decidable (∀ m ∈ ms, Text.sameLetters m.1 key = true → m.1 = key))

/-- No spelling of a key comes before the usual one. -/
def UsualFirst (key : String) (ms : Members) : Prop :=
  ∀ m ∈ ms, Text.sameLetters m.1 key = true → key ≤ m.1

instance (key : String) (ms : Members) : Decidable (UsualFirst key ms) :=
  inferInstanceAs (Decidable (∀ m ∈ ms, Text.sameLetters m.1 key = true → key ≤ m.1))

def child (ms : Members) (key : String) : Members :=
  match KeyMap.get? ms (spelling ms key) with
  | some (.obj inner) => inner
  | _ => []

def confidentialOf (group : Members) : Members :=
  child (child group "properties") "confidentialComputeProperties"

def groupAt? (template : Json) (position : Nat) : Option Json :=
  match groupPlaces template with
  | .ok places => places[position]?.bind ((resources template)[·]?)
  | .error _ => none

variable {ms : Members} {key path : String}

theorem spelling_cons (k : String) (v : Json) (ms : Members) (key : String) :
    spelling ((k, v) :: ms) key = if Text.sameLetters k key then k else spelling ms key := by
  cases h : Text.sameLetters k key <;> simp [spelling, h]

theorem sameLetters_spelling (ms : Members) (key : String) :
    Text.sameLetters (spelling ms key) key = true := by
  induction ms with
  | nil => exact Text.sameLetters_refl key
  | cons m ms ih =>
    rw [spelling_cons]
    split
    · next h => exact h
    · exact ih

theorem UsualSpelling.spelling_eq (h : UsualSpelling key ms) : spelling ms key = key := by
  induction ms with
  | nil => rfl
  | cons m ms ih =>
    rw [spelling_cons]
    split
    · next hm => exact h m List.mem_cons_self hm
    · exact ih fun n hn ↦ h n (List.mem_cons_of_mem _ hn)

theorem UsualSpelling.usualFirst (h : UsualSpelling key ms) : UsualFirst key ms :=
  fun m hm hsame ↦ (h m hm hsame).symm ▸ String.le_refl _

theorem find?_eq_get?_spelling (ms : Members) (key : String) :
    Fields.find? ⟨ms⟩ key = KeyMap.get? ms (spelling ms key) := by
  induction ms with
  | nil => rfl
  | cons m ms ih =>
    rw [Fields.find?_cons, spelling_cons, KeyMap.get?_cons]
    split
    · rw [if_pos rfl]
    · next h =>
      have hne : spelling ms key ≠ m.1 := fun he ↦ h (he ▸ sameLetters_spelling ms key)
      rw [if_neg hne, ih]

theorem spelling_insert_spelling (ms : Members) (key : String) (v : Json) :
    spelling (KeyMap.insert (spelling ms key) v ms) key = spelling ms key := by
  -- The keys may come in any order, but none before the inserted one is a spelling of `key`.
  induction ms with
  | nil => rw [KeyMap.insert, spelling_cons, if_pos (sameLetters_spelling [] key)]
  | cons m ms ih =>
    obtain ⟨k, w⟩ := m
    rw [spelling_cons]
    split
    · next h =>
      rw [KeyMap.insert, if_neg (String.lt_irrefl k), if_pos rfl, spelling_cons, if_pos h]
    · next h =>
      have hsame := sameLetters_spelling ms key
      have hne : spelling ms key ≠ k := fun he ↦ h (he ▸ hsame)
      rw [KeyMap.insert, if_neg hne]
      split
      · rw [spelling_cons, if_pos hsame]
      · rw [spelling_cons, if_neg h, ih]

theorem find?_insert_spelling (ms : Members) (key : String) (v : Json) :
    Fields.find? ⟨KeyMap.insert (spelling ms key) v ms⟩ key = some v := by
  rw [find?_eq_get?_spelling, spelling_insert_spelling, KeyMap.get?_insert_self]

/-- What is written under the usual spelling is read unless another spelling comes first. -/
theorem find?_insert_of_usualFirst (h : UsualFirst key ms) (v : Json) :
    Fields.find? ⟨KeyMap.insert key v ms⟩ key = some v := by
  have hself := Text.sameLetters_refl key
  induction ms with
  | nil => rw [KeyMap.insert, Fields.find?_cons, if_pos hself]
  | cons m ms ih =>
    obtain ⟨k, w⟩ := m
    rw [KeyMap.insert]
    split
    · rw [Fields.find?_cons, if_pos hself]
    · next hlt =>
      split
      · next heq => rw [Fields.find?_cons, if_pos (heq ▸ hself)]
      · next hne =>
        have hother : ¬ Text.sameLetters k key = true := fun hk ↦
          hne (String.le_antisymm (h _ List.mem_cons_self hk) (String.not_lt.mp hlt))
        rw [Fields.find?_cons, if_neg hother]
        exact ih fun n hn ↦ h n (List.mem_cons_of_mem _ hn)

theorem updateObject_of_object {inner : Members}
    (h : (KeyMap.get? ms (spelling ms key)).getD (.obj []) = .obj inner)
    (f : Members → Checked Members) : updateObject ms key f =
      f inner >>= fun changed ↦ .ok (KeyMap.insert (spelling ms key) (.obj changed) ms) := by
  unfold updateObject
  simp only [h]
  rfl

theorem object_of_updateObject {f : Members → Checked Members} {ns : Members}
    (h : updateObject ms key f = .ok ns) :
    (KeyMap.get? ms (spelling ms key)).getD (.obj []) = .obj (child ms key) := by
  simp only [updateObject] at h
  unfold child
  cases hget : KeyMap.get? ms (spelling ms key) with
  | none => rfl
  | some v =>
    rw [hget] at h
    cases v with
    | obj inner => rfl
    | null | bool | num | str | arr => cases h

theorem updateObject_eq_ok {f : Members → Checked Members} {ns : Members}
    (h : updateObject ms key f = .ok ns) : ∃ inner, f (child ms key) = .ok inner ∧
      ns = KeyMap.insert (spelling ms key) (.obj inner) ms := by
  rw [updateObject_of_object (object_of_updateObject h)] at h
  obtain ⟨inner, hinner, h⟩ := bind_eq_ok_iff.mp h
  cases h
  exact ⟨inner, hinner, rfl⟩

theorem object_insert_spelling (ms : Members) (key path : String) (inner : Members) :
    Fields.object ⟨KeyMap.insert (spelling ms key) (.obj inner) ms⟩ key path = .ok (some ⟨inner⟩) :=
  Fields.read_of_find? (find?_insert_spelling ms key (.obj inner)) rfl rfl

theorem writePolicy_eq_ok {group written : Members} {policy : String}
    (h : writePolicy group policy = .ok written) :
    written = KeyMap.insert (spelling group "properties") (.obj (KeyMap.insert
      (spelling (child group "properties") "confidentialComputeProperties") (.obj (KeyMap.insert
        "ccePolicy" (.str policy) (confidentialOf group))) (child group "properties"))) group := by
  obtain ⟨properties, hproperties, rfl⟩ := updateObject_eq_ok h
  obtain ⟨confidential, hconfidential, rfl⟩ := updateObject_eq_ok hproperties
  cases hconfidential
  rfl

theorem encodedPolicy_writePolicy {group written : Members} {policy : String}
    (hw : writePolicy group policy = .ok written)
    (hs : UsualFirst "ccePolicy" (confidentialOf group)) :
    encodedPolicy (.obj written) = .ok (some (.str policy)) := by
  have hpolicy := find?_insert_of_usualFirst hs (.str policy)
  rw [writePolicy_eq_ok hw]
  refine bind_eq_ok_iff.mpr ⟨_, rfl, bind_eq_ok_iff.mpr ⟨_, object_insert_spelling _ _ _ _,
    bind_eq_ok_iff.mpr ⟨_, object_insert_spelling _ _ _ _, ?_⟩⟩⟩
  simp only [Fields.get?, hpolicy]
  rfl

theorem isGroup_writePolicy {group written : Members} {policy : String}
    (hw : writePolicy group policy = .ok written) :
    isGroup (.obj written) = isGroup (.obj group) := by
  have hne : "type" ≠ spelling group "properties" := by
    intro he
    have hsame := sameLetters_spelling group "properties"
    rw [← he] at hsame
    exact absurd hsame (by decide)
  rw [writePolicy_eq_ok hw]
  simp only [isGroup, get?, KeyMap.get?_insert, if_neg hne]

def placesOf (rs : List Json) : List Nat :=
  (List.range rs.length).filter fun i ↦ rs[i]?.any isGroup

theorem groupPlaces_obj {rs : List Json} (h : Fields.find? ⟨ms⟩ "resources" = some (.arr rs)) :
    groupPlaces (.obj ms) =
      if placesOf rs = [] then .error (.field resourcesPath (.noGroup groupType))
      else .ok (placesOf rs) := by
  have hlist : Fields.list ⟨ms⟩ "resources" resourcesPath = .ok (some rs) :=
    Fields.read_of_find? h rfl rfl
  unfold groupPlaces
  simp only [Fields.ofJson]
  change (Fields.list ⟨ms⟩ "resources" resourcesPath >>= _) = _
  rw [hlist]
  rfl

theorem groupPlaces_eq_ok {t : Json} {places : List Nat} (h : groupPlaces t = .ok places) :
    ∃ ms rs, t = .obj ms ∧ Fields.find? ⟨ms⟩ "resources" = some (.arr rs) ∧
      places = placesOf rs := by
  obtain ⟨root, hroot, h⟩ := bind_eq_ok_iff.mp h
  obtain ⟨resources, hlist, h⟩ := bind_eq_ok_iff.mp h
  cases t with
  | obj ms =>
    cases hroot
    rcases Fields.read_eq_ok hlist with ⟨-, rfl⟩ | ⟨v, rs, hv, hitems, rfl⟩
    · cases h
    · simp only at h
      split at h
      · cases h
      · cases h
        rw [items?_eq_some_iff.mp hitems] at hv
        exact ⟨ms, rs, rfl, (Fields.get?_eq_some_iff.mp hv).1, rfl⟩
  | null | bool | num | str | arr => cases hroot

theorem placesOf_set {rs : List Json} {i : Nat} {before after : Json} (h : rs[i]? = some before)
    (hgroup : isGroup after = isGroup before) : placesOf (rs.set i after) = placesOf rs := by
  rw [placesOf, placesOf, List.length_set]
  refine List.filter_congr fun j _ ↦ ?_
  rw [List.getElem?_set]
  split
  · next hij =>
    subst hij
    split
    · simp [h, hgroup]
    · next hlt => rw [List.getElem?_eq_none (Nat.le_of_not_lt hlt)]
  · rfl

theorem inject_eq_ok {t u : Json} {n : Nat} {policy : String} (h : inject t n policy = .ok u) :
    ∃ places i ms rs group written, groupPlaces t = .ok places ∧ places[n]? = some i ∧
      t = .obj ms ∧ KeyMap.get? ms "resources" = some (.arr rs) ∧ rs[i]? = some (.obj group) ∧
      writePolicy group policy = .ok written ∧
      u = .obj (KeyMap.insert "resources" (.arr (rs.set i (.obj written))) ms) := by
  replace h := bind_eq_ok_iff.mp h
  obtain ⟨places, hplaces, h⟩ := h
  split at h
  · cases h
  · next i hi =>
    split at h
    · next ms =>
      split at h
      · next rs hrs =>
        split at h
        · next group hgroup =>
          obtain ⟨written, hwritten, h⟩ := bind_eq_ok_iff.mp h
          cases h
          exact ⟨places, i, ms, rs, group, written, hplaces, hi, rfl, hrs, hgroup, hwritten, rfl⟩
        · cases h
      · cases h
    · cases h

/-- Where a template spells its resources in the usual way, the group that a policy was written to
stays where it was and has that policy. -/
theorem exists_groupAt?_inject {t u : Json} {n : Nat} {policy : String}
    (hu : inject t n policy = .ok u) (hr : ∀ ms, t = .obj ms → UsualSpelling "resources" ms)
    (hc : ∀ group, groupAt? t n = some (.obj group) →
      UsualSpelling "ccePolicy" (confidentialOf group)) :
    ∃ group, groupAt? u n = some group ∧ encodedPolicy group = .ok (some (.str policy)) := by
  obtain ⟨places, i, ms, rs, group, written, hplaces, hi, rfl, hrs, hgroup, hw, rfl⟩ :=
    inject_eq_ok hu
  have hspelling := (hr ms rfl).spelling_eq
  have hfind : Fields.find? ⟨ms⟩ "resources" = some (.arr rs) := by
    rw [find?_eq_get?_spelling, hspelling, hrs]
  have hfind' := find?_insert_spelling ms "resources" (.arr (rs.set i (.obj written)))
  rw [hspelling] at hfind'
  -- The type of the group that is written to stays, and so do the places of all groups.
  have hsame := placesOf_set hgroup (isGroup_writePolicy hw)
  have hplaces' : groupPlaces (.obj (KeyMap.insert "resources" (.arr (rs.set i (.obj written))) ms))
      = .ok places := by
    rw [groupPlaces_obj hfind', hsame, ← hplaces, groupPlaces_obj hfind]
  have hat : groupAt? (.obj ms) n = some (.obj group) := by
    simp [groupAt?, hplaces, hi, resources, get?, hrs, items?, hgroup]
  have hlt : i < rs.length := (List.getElem?_eq_some_iff.mp hgroup).1
  refine ⟨.obj written, ?_, encodedPolicy_writePolicy hw (hc group hat).usualFirst⟩
  simp [groupAt?, hplaces', hi, resources, get?, KeyMap.get?_insert, items?, hlt]

theorem policyOf_of_encoded {group : Json} {text : String} {defaults : List FragmentImport}
    (hp : encodedPolicy group = .ok (some (.str (encodeText text)))) (ht : text.toList ≠ [])
    (hj : Json.parse? text = none) : policyOf group defaults = .ok (scan text) := by
  refine bind_eq_ok_iff.mpr ⟨_, hp, ?_⟩
  simp only [if_neg (trim_encodeText_ne_nil ht)]
  refine bind_eq_ok_iff.mpr ⟨_, decodeText_encodeText, ?_⟩
  rw [hj]
  rfl

end Template

end ConfidentialPolicy

import ConfidentialPolicy.Proofs.Checked
import ConfidentialPolicy.Proofs.Fields
import Mathlib.Data.List.Nodup
import Mathlib.Data.List.Perm.Subperm

namespace ConfidentialPolicy

open Json Checked

theorem Text.sameLetters_iff_lower {s t : String} :
    sameLetters s t = true ↔ lower s = lower t := by
  rw [sameLetters_iff, lower, lower, String.ofList_inj]

/-- In which objects of a value the keys may be respelled. -/
inductive Shape where
  | exact
  | list (item : Shape)
  /-- The values of an object go by their keys in lower case. -/
  | object (dropsNull : Bool) (field : String → Shape)

def Distinct (ms : Members) : Prop := (ms.map fun m ↦ Text.lower m.1).Nodup

instance (ms : Members) : Decidable (Distinct ms) :=
  inferInstanceAs (Decidable (ms.map fun m : String × Json ↦ Text.lower m.1).Nodup)

inductive Respelling (dropsNull : Bool) (r : String → Json → Json → Prop) :
    Members → Members → Prop
  | nil : Respelling dropsNull r [] []
  | keep {k l : String} {v w : Json} {ms ns : Members} (hkey : Text.sameLetters l k = true)
      (hvalue : r (Text.lower k) v w) (h : Respelling dropsNull r ms ns) :
      Respelling dropsNull r ((k, v) :: ms) ((l, w) :: ns)
  | drop {k : String} {ms ns : Members} (hdrops : dropsNull = true)
      (h : Respelling dropsNull r ms ns) : Respelling dropsNull r ((k, .null) :: ms) ns
  | perm {ms ns ns' : Members} (h : Respelling dropsNull r ms ns) (hperm : ns.Perm ns') :
      Respelling dropsNull r ms ns'

def Respelled : Shape → Json → Json → Prop
  | .exact, v, w => v = w
  | .list item, v, w => match v, w with
    | .arr vs, .arr ws => List.Forall₂ (Respelled item) vs ws
    | v, w => v = w
  | .object dropsNull field, v, w => match v, w with
    | .obj ms, .obj ns => Distinct ms ∧ Respelling dropsNull (fun key ↦ Respelled (field key)) ms ns
    | v, w => v = w

variable {dropsNull : Bool} {r : String → Json → Json → Prop} {ms ns : Members} {key : String}
  {field : String → Shape} {item : Shape} {v w : Json}

theorem Respelled.list_cases (h : Respelled (.list item) v w) :
    (∃ vs ws, v = .arr vs ∧ w = .arr ws ∧ List.Forall₂ (Respelled item) vs ws) ∨
      v = w ∧ v.items? = none := by
  unfold Respelled at h
  split at h
  · next vs ws => exact .inl ⟨vs, ws, rfl, rfl, h⟩
  · next hno =>
    subst h
    cases v with
    | arr vs => exact absurd rfl (hno vs vs rfl)
    | null | bool | num | str | obj => exact .inr ⟨rfl, rfl⟩

theorem Respelled.object_cases (h : Respelled (.object dropsNull field) v w) :
    (∃ ms ns, v = .obj ms ∧ w = .obj ns ∧ Distinct ms ∧
      Respelling dropsNull (fun key ↦ Respelled (field key)) ms ns) ∨
      v = w ∧ v.members? = none := by
  unfold Respelled at h
  split at h
  · next ms ns => exact .inl ⟨ms, ns, rfl, rfl, h⟩
  · next hno =>
    subst h
    cases v with
    | obj ms => exact absurd rfl (hno ms ms rfl)
    | null | bool | num | str | arr => exact .inr ⟨rfl, rfl⟩

theorem Respelled.isNull_eq {shape : Shape} (h : Respelled shape v w) : v.isNull = w.isNull := by
  cases shape with
  | exact =>
    cases h
    rfl
  | list item =>
    obtain ⟨vs, ws, rfl, rfl, -⟩ | ⟨rfl, -⟩ := h.list_cases <;> rfl
  | object dropsNull field =>
    obtain ⟨ms, ns, rfl, rfl, -, -⟩ | ⟨rfl, -⟩ := h.object_cases <;> rfl

theorem eq_of_rel_exact {o p : Option Json} (h : Option.Rel (Respelled .exact) o p) : o = p := by
  cases h with
  | none => rfl
  | some hvw => exact congrArg some hvw

namespace Respelling

theorem exists_left (h : Respelling dropsNull r ms ns) : ∀ m ∈ ms,
    (∃ n ∈ ns, Text.lower n.1 = Text.lower m.1 ∧ r (Text.lower m.1) m.2 n.2) ∨
      dropsNull = true ∧ m.2 = .null := by
  induction h with
  | nil => simp
  | @keep k l v w ms ns hkey hvalue _ ih =>
    intro m hm
    rcases List.mem_cons.mp hm with rfl | hm
    · have hlower := Text.sameLetters_iff_lower.mp hkey
      exact .inl ⟨(l, w), List.mem_cons_self, hlower, hvalue⟩
    · refine (ih m hm).imp_left ?_
      rintro ⟨n, hn, hrest⟩
      exact ⟨n, List.mem_cons_of_mem _ hn, hrest⟩
  | drop hdrops _ ih =>
    intro m hm
    rcases List.mem_cons.mp hm with rfl | hm
    · exact .inr ⟨hdrops, rfl⟩
    · exact ih m hm
  | perm _ hperm ih =>
    intro m hm
    refine (ih m hm).imp_left ?_
    rintro ⟨n, hn, hrest⟩
    exact ⟨n, hperm.mem_iff.mp hn, hrest⟩

theorem exists_right (h : Respelling dropsNull r ms ns) : ∀ n ∈ ns,
    ∃ m ∈ ms, Text.lower n.1 = Text.lower m.1 ∧ r (Text.lower m.1) m.2 n.2 := by
  induction h with
  | nil => simp
  | @keep k l v w ms ns hkey hvalue _ ih =>
    intro n hn
    rcases List.mem_cons.mp hn with rfl | hn
    · have hlower := Text.sameLetters_iff_lower.mp hkey
      exact ⟨(k, v), List.mem_cons_self, hlower, hvalue⟩
    · obtain ⟨m, hm, hrest⟩ := ih n hn
      exact ⟨m, List.mem_cons_of_mem _ hm, hrest⟩
  | drop _ _ ih =>
    intro n hn
    obtain ⟨m, hm, hrest⟩ := ih n hn
    exact ⟨m, List.mem_cons_of_mem _ hm, hrest⟩
  | perm _ hperm ih => exact fun n hn ↦ ih n (hperm.mem_iff.mpr hn)

theorem keys_subperm (h : Respelling dropsNull r ms ns) :
    (ns.map fun n ↦ Text.lower n.1).Subperm (ms.map fun m ↦ Text.lower m.1) := by
  induction h with
  | nil => exact .refl _
  | keep hkey _ _ ih =>
    rw [List.map_cons, List.map_cons, Text.sameLetters_iff_lower.mp hkey]
    exact (List.subperm_cons _).mpr ih
  | drop _ _ ih => exact ih.trans (List.sublist_cons_self _ _).subperm
  | perm _ hperm ih => exact (hperm.map _).symm.subperm.trans ih

theorem distinct (h : Respelling dropsNull r ms ns) (hms : Distinct ms) : Distinct ns := by
  obtain ⟨keys, hperm, hsub⟩ := h.keys_subperm
  exact hperm.nodup_iff.mp (List.Nodup.sublist hsub hms)

end Respelling

theorem Distinct.mem_iff (hms : Distinct ms) :
    Fields.find? ⟨ms⟩ key = some v ↔ ∃ k, (k, v) ∈ ms ∧ Text.lower k = Text.lower key := by
  induction ms with
  | nil => simp [Fields.find?]
  | cons m ms ih =>
    obtain ⟨l, w⟩ := m
    obtain ⟨hl, hrest⟩ := List.nodup_cons.mp hms
    rw [Fields.find?_cons]
    by_cases hsame : Text.lower l = Text.lower key
    · rw [if_pos (Text.sameLetters_iff_lower.mpr hsame)]
      constructor
      · intro hv
        exact ⟨l, Option.some.inj hv ▸ List.mem_cons_self, hsame⟩
      · rintro ⟨k, hk, hkey⟩
        rcases List.mem_cons.mp hk with hk | hk
        · rw [(Prod.mk.inj hk).2]
        · exact absurd (List.mem_map.mpr ⟨(k, v), hk, hkey.trans hsame.symm⟩) hl
    · rw [if_neg fun h ↦ hsame (Text.sameLetters_iff_lower.mp h), ih hrest]
      refine exists_congr fun k ↦ and_congr_left fun hkey ↦ ?_
      constructor
      · exact fun hk ↦ List.mem_cons_of_mem _ hk
      · intro hk
        rcases List.mem_cons.mp hk with hk | hk
        · exact absurd ((Prod.mk.inj hk).1 ▸ hkey) hsame
        · exact hk

theorem rel_option_of_forall {α β : Type} {s : α → β → Prop} {o : Option α} {p : Option β}
    (hleft : ∀ a, o = some a → ∃ b, p = some b ∧ s a b)
    (hright : ∀ b, p = some b → ∃ a, o = some a ∧ s a b) : Option.Rel s o p := by
  cases o with
  | some a =>
    obtain ⟨b, rfl, hab⟩ := hleft a rfl
    exact .some hab
  | none => cases p with
    | none => exact .none
    | some b =>
      obtain ⟨a, ha, -⟩ := hright b rfl
      cases ha

namespace Respelling

theorem exists_find?_left (h : Respelling dropsNull r ms ns) (hms : Distinct ms)
    (hv : Fields.find? ⟨ms⟩ key = some v) :
    (∃ w, Fields.find? ⟨ns⟩ key = some w ∧ r (Text.lower key) v w) ∨
      dropsNull = true ∧ v = .null := by
  obtain ⟨k, hk, hkey⟩ := hms.mem_iff.mp hv
  refine (h.exists_left (k, v) hk).imp_left ?_
  rintro ⟨⟨l, w⟩, hl, hlower, hr⟩
  exact ⟨w, (h.distinct hms).mem_iff.mpr ⟨l, hl, hlower.trans hkey⟩, hkey ▸ hr⟩

theorem exists_find?_right (h : Respelling dropsNull r ms ns) (hms : Distinct ms)
    (hw : Fields.find? ⟨ns⟩ key = some w) :
    ∃ v, Fields.find? ⟨ms⟩ key = some v ∧ r (Text.lower key) v w := by
  obtain ⟨l, hl, hkey⟩ := (h.distinct hms).mem_iff.mp hw
  obtain ⟨⟨k, v⟩, hk, hlower, hr⟩ := h.exists_right (l, w) hl
  have hsame : Text.lower k = Text.lower key := hlower.symm.trans hkey
  exact ⟨v, hms.mem_iff.mpr ⟨k, hk, hsame⟩, hsame ▸ hr⟩

theorem rel_find? (h : Respelling false r ms ns) (hms : Distinct ms) (key : String) :
    Option.Rel (r (Text.lower key)) (Fields.find? ⟨ms⟩ key) (Fields.find? ⟨ns⟩ key) := by
  apply rel_option_of_forall
  · intro v hv
    obtain hw | ⟨hdrops, -⟩ := h.exists_find?_left hms hv
    · exact hw
    · cases hdrops
  · exact fun w hw ↦ h.exists_find?_right hms hw

/-- A field that is missing and one that is `null` are the same. -/
theorem rel_get? (h : Respelling dropsNull r ms ns) (hms : Distinct ms)
    (hnull : ∀ key v w, r key v w → v.isNull = w.isNull) (key : String) :
    Option.Rel (r (Text.lower key)) (Fields.get? ⟨ms⟩ key) (Fields.get? ⟨ns⟩ key) := by
  apply rel_option_of_forall
  · intro v hv
    obtain ⟨hfind, hvnull⟩ := Fields.get?_eq_some_iff.mp hv
    obtain ⟨w, hw, hr⟩ | ⟨-, rfl⟩ := h.exists_find?_left hms hfind
    · have hwnull := (hnull _ _ _ hr).symm.trans hvnull
      exact ⟨w, Fields.get?_eq_some_iff.mpr ⟨hw, hwnull⟩, hr⟩
    · cases hvnull
  · intro w hw
    obtain ⟨hfind, hwnull⟩ := Fields.get?_eq_some_iff.mp hw
    obtain ⟨v, hv, hr⟩ := h.exists_find?_right hms hfind
    have hvnull := (hnull _ _ _ hr).trans hwnull
    exact ⟨v, Fields.get?_eq_some_iff.mpr ⟨hv, hvnull⟩, hr⟩

end Respelling

namespace Fields

def Agree (field : String → Shape) (f g : Fields) : Prop :=
  ∀ key, Option.Rel (Respelled (field (Text.lower key))) (f.get? key) (g.get? key)

theorem agree_of_respelling (hms : Distinct ms)
    (h : Respelling dropsNull (fun key ↦ Respelled (field key)) ms ns) :
    Agree field ⟨ms⟩ ⟨ns⟩ :=
  h.rel_get? hms fun _ _ _ hr ↦ hr.isNull_eq

theorem agree_ofJson (h : Respelled (.object dropsNull field) v w) (path : String) :
    Checked.Agree (Agree field) (ofJson v path) (ofJson w path) := by
  obtain ⟨ms, ns, rfl, rfl, hms, h⟩ | ⟨rfl, hno⟩ := h.object_cases
  · exact .ok (agree_of_respelling hms h)
  · cases v with
    | obj ms => cases hno
    | null | bool | num | str | arr => exact .error _

variable {f g : Fields} {inner : String → Shape}

theorem Agree.get?_eq (h : Agree field f g) (hfield : field (Text.lower key) = .exact) :
    f.get? key = g.get? key := by
  have hkey := h key
  rw [hfield] at hkey
  exact eq_of_rel_exact hkey

theorem Agree.read {α : Type} {s : α → α → Prop} {view : Json → Option α} (h : Agree field f g)
    (hview : ∀ v w, Respelled (field (Text.lower key)) v w → Option.Rel s (view v) (view w))
    (path : String) (fault : Fault) :
    Checked.Agree (Option.Rel s) (f.read key path fault view) (g.read key path fault view) := by
  have hkey := h key
  unfold Fields.read
  generalize f.get? key = o, g.get? key = p at hkey
  cases hkey with
  | none => exact .ok .none
  | @some v w hvw =>
    have hrel := hview v w hvw
    simp only
    generalize view v = a, view w = b at hrel
    cases hrel with
    | none => exact .error _
    | some hab => exact .ok (.some hab)

theorem Agree.list (h : Agree field f g) (hfield : field (Text.lower key) = .list item)
    (path : String) : Checked.Agree (Option.Rel (List.Forall₂ (Respelled item)))
      (f.list key path) (g.list key path) := by
  refine h.read (fun v w hvw ↦ ?_) path .notList
  rw [hfield] at hvw
  obtain ⟨vs, ws, rfl, rfl, hitems⟩ | ⟨rfl, hno⟩ := hvw.list_cases
  · exact .some hitems
  · rw [hno]
    exact .none

theorem Agree.object (h : Agree field f g)
    (hfield : field (Text.lower key) = .object dropsNull inner) (path : String) :
    Checked.Agree (Option.Rel (Agree inner)) (f.object key path) (g.object key path) := by
  refine h.read (fun v w hvw ↦ ?_) path .notObject
  rw [hfield] at hvw
  obtain ⟨ms, ns, rfl, rfl, hms, hmembers⟩ | ⟨rfl, hno⟩ := hvw.object_cases
  · exact .some (agree_of_respelling hms hmembers)
  · rw [hno]
    exact .none

end Fields

def Paired (field : String → Shape) (m n : String × Json) : Prop :=
  m.1 = n.1 ∧ Respelled (field (Text.lower m.1)) m.2 n.2

namespace Paired

theorem forall₂_insert {m n : String × Json} (hmn : Paired field m n)
    (h : List.Forall₂ (Paired field) ms ns) :
    List.Forall₂ (Paired field) (KeyMap.insert m.1 m.2 ms) (KeyMap.insert n.1 n.2 ns) := by
  obtain ⟨key, v⟩ := m
  obtain ⟨key', w⟩ := n
  obtain rfl : key = key' := hmn.1
  induction h with
  | nil => exact .cons hmn .nil
  | @cons a b ms ns hab hrest ih =>
    obtain ⟨k, a⟩ := a
    obtain ⟨k', b⟩ := b
    obtain rfl : k = k' := hab.1
    simp only [KeyMap.insert]
    split
    · exact .cons hmn (.cons hab hrest)
    · split
      · next hkey => exact .cons (hkey ▸ hmn) hrest
      · exact .cons hab ih

theorem forall₂_ofList {as bs : List (String × Json)} (h : List.Forall₂ (Paired field) as bs) :
    List.Forall₂ (Paired field) (KeyMap.ofList as) (KeyMap.ofList bs) := by
  have hfold : ∀ {ms ns : Members}, List.Forall₂ (Paired field) ms ns →
      List.Forall₂ (Paired field) (as.foldl (fun m p ↦ KeyMap.insert p.1 p.2 m) ms)
        (bs.foldl (fun m p ↦ KeyMap.insert p.1 p.2 m) ns) := by
    induction h with
    | nil => exact id
    | cons hab _ ih => exact fun hms ↦ ih (forall₂_insert hab hms)
  exact hfold .nil

theorem agree_of_forall₂ (h : List.Forall₂ (Paired field) ms ns) :
    Fields.Agree field ⟨ms⟩ ⟨ns⟩ := by
  intro key
  induction h with
  | nil => exact .none
  | @cons a b ms ns hab _ ih =>
    obtain ⟨k, a⟩ := a
    obtain ⟨k', b⟩ := b
    obtain rfl : k = k' := hab.1
    have hnull : a.isNull = b.isNull := hab.2.isNull_eq
    by_cases hkey : Text.sameLetters k key = true
    · have hlower := Text.sameLetters_iff_lower.mp hkey
      have hvalue := hab.2
      simp only [hlower] at hvalue
      simp only [Fields.get?, Fields.find?_cons, hkey, if_true, Option.filter_some, ← hnull]
      cases a.isNull with
      | true => exact .none
      | false => exact .some hvalue
    · simpa only [Fields.get?, Fields.find?_cons, if_neg hkey] using ih

end Paired

end ConfidentialPolicy

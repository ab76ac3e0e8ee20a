import ConfidentialPolicy.Proofs.Drift
import ConfidentialPolicy.Proofs.Text.Digits
import ConfidentialPolicy.Proofs.Text.Search
import Mathlib.Data.Set.Card

namespace ConfidentialPolicy.DriftReport

open Json

def labelOf (p : String × Nat) : String := label p.1 p.2

theorem labelOf_zero (id : String) : labelOf (id, 0) = id := rfl

-- An id may hold brackets of its own, so a label is read from its end.
theorem reverse_toList_labelOf {p : String × Nat} (h : 0 < p.2) :
    (labelOf p).toList.reverse =
      (']' :: (Nat.toDigits 10 p.2).reverse) ++ '[' :: p.1.toList.reverse := by
  rw [labelOf, label, if_neg (Nat.ne_of_gt h)]
  simp [Text.decimal]

theorem bracket_not_mem_digits (n : Nat) : '[' ∉ ']' :: (Nat.toDigits 10 n).reverse := by
  intro h
  rcases List.mem_cons.mp h with h | h
  · cases h
  · have hdigit := Text.isDigit_of_mem_toDigits (List.mem_reverse.mp h)
    cases hdigit

/-- The last opening bracket of the label of a later record ends its id. -/
theorem eq_of_labelOf_eq {p q : String × Nat} (hp : 0 < p.2) (hq : 0 < q.2)
    (h : labelOf p = labelOf q) : p = q := by
  have hreverse := congrArg (fun s : String ↦ s.toList.reverse) h
  simp only [reverse_toList_labelOf hp, reverse_toList_labelOf hq] at hreverse
  obtain ⟨hdigits, hid⟩ :=
    Text.append_cons_inj (bracket_not_mem_digits p.2) (bracket_not_mem_digits q.2) hreverse
  have hnumber := congrArg Text.natOf (List.reverse_injective (List.cons.inj hdigits).2)
  rw [Text.natOf_toDigits, Text.natOf_toDigits] at hnumber
  exact Prod.ext (String.toList_injective (List.reverse_injective hid)) hnumber

/-- Two places share a label only if one is that of a first record with the other's label as id. -/
theorem labelOf_eq_cases {p q : String × Nat} (h : labelOf p = labelOf q) :
    p = q ∨ (0 < p.2 ∧ q = (labelOf p, 0)) ∨ (0 < q.2 ∧ p = (labelOf q, 0)) := by
  obtain ⟨id, n⟩ := p
  obtain ⟨id', n'⟩ := q
  rcases Nat.eq_zero_or_pos n with rfl | hn
  · rcases Nat.eq_zero_or_pos n' with rfl | hn'
    · exact .inl (congrArg (·, 0) h)
    · exact .inr (.inr ⟨hn', congrArg (·, 0) h⟩)
  · rcases Nat.eq_zero_or_pos n' with rfl | hn'
    · exact .inr (.inl ⟨hn, congrArg (·, 0) h.symm⟩)
    · exact .inl (eq_of_labelOf_eq hn hn' h)

def changesAt (old new : List Json) (p : String × Nat) : List Change :=
  pairChanges (withId p.1 old)[p.2]? (withId p.1 new)[p.2]?

/-- The ids and places at which the records differ, or at which one side has none. -/
def drifting (old new : List Json) : Set (String × Nat) :=
  {p | ((withId p.1 old)[p.2]?).map unsigned ≠ ((withId p.1 new)[p.2]?).map unsigned}

/-- Those of later records whose label is the id of a first record that drifts as well. -/
def shadowed (old new : List Json) : Set (String × Nat) :=
  {p ∈ drifting old new | 0 < p.2 ∧ (labelOf p, 0) ∈ drifting old new}

theorem mem_drifting_iff {old new : Records} {p : String × Nat} :
    p ∈ drifting old.items new.items ↔ changesAt old.items new.items p ≠ [] :=
  not_congr (pairChanges_eq_nil_iff (forall_mem_withId_getElem? old.canonical p.1 p.2)
    (forall_mem_withId_getElem? new.canonical p.1 p.2)).symm

theorem mem_reports_iff {old new : Records} {key : String} {r : Json} :
    (key, r) ∈ (entries old.items new.items).map (fun e ↦ (e.1, report e.2)) ↔
      ∃ p ∈ drifting old.items new.items,
        labelOf p = key ∧ report (changesAt old.items new.items p) = r := by
  simp only [List.mem_map, mem_entries_iff, mem_drifting_iff, Prod.mk.injEq]
  constructor
  · rintro ⟨-, ⟨id, n, hne, rfl⟩, hkey, hr⟩
    exact ⟨(id, n), hne, hkey, hr⟩
  · rintro ⟨⟨id, n⟩, hne, hkey, hr⟩
    exact ⟨_, ⟨id, n, hne, rfl⟩, hkey, hr⟩

theorem mem_keys_diff_iff {old new : Records} {key : String} :
    key ∈ KeyMap.keys (compare old.items new.items).diff ↔
      key ∈ labelOf '' drifting old.items new.items := by
  rw [compare, KeyMap.mem_keys_ofList, KeyMap.keys, List.mem_map, Set.mem_image]
  constructor
  · rintro ⟨⟨key, r⟩, he, rfl⟩
    obtain ⟨p, hp, hkey, -⟩ := mem_reports_iff.mp he
    exact ⟨p, hp, hkey⟩
  · rintro ⟨p, hp, rfl⟩
    exact ⟨_, mem_reports_iff.mpr ⟨p, hp, rfl, rfl⟩, rfl⟩

/-- A record that drifts and shares its label with no other has its own entry. -/
theorem get?_diff_of_unique {old new : Records} {p : String × Nat}
    (hp : p ∈ drifting old.items new.items)
    (hunique : ∀ q ∈ drifting old.items new.items, labelOf q = labelOf p → q = p) :
    KeyMap.get? (compare old.items new.items).diff (labelOf p) =
      some (report (changesAt old.items new.items p)) := by
  refine KeyMap.get?_ofList_of_unique (mem_reports_iff.mpr ⟨p, hp, rfl, rfl⟩) fun r hr ↦ ?_
  obtain ⟨q, hq, hlabel, rfl⟩ := mem_reports_iff.mp hr
  rw [hunique q hq hlabel]

/-- There are as many entries as labels. -/
theorem encard_labels (old new : Records) : (labelOf '' drifting old.items new.items).encard =
    (compare old.items new.items).diff.length := by
  have hnodup : (KeyMap.keys (compare old.items new.items).diff).Nodup :=
    (KeyMap.sorted_ofList _).nodup_keys
  have hkeys : labelOf '' drifting old.items new.items =
      ((KeyMap.keys (compare old.items new.items).diff).toFinset : Set String) := by
    ext key
    rw [← mem_keys_diff_iff, List.coe_toFinset, Set.mem_ofPred_eq]
  rw [hkeys, Set.encard_coe_eq_coe_finsetCard, List.toFinset_card_of_nodup hnodup, KeyMap.keys,
    List.length_map]

variable {old new : List Json}

theorem not_mem_shadowed_zero (id : String) : (id, 0) ∉ shadowed old new :=
  fun h ↦ Nat.lt_irrefl 0 h.2.1

/-- What is not shadowed has labels of its own. -/
theorem injOn_labelOf : Set.InjOn labelOf (drifting old new \ shadowed old new) := by
  rintro p ⟨hp, hp'⟩ q ⟨hq, hq'⟩ h
  rcases labelOf_eq_cases h with hpq | ⟨hpos, rfl⟩ | ⟨hpos, rfl⟩
  · exact hpq
  · exact absurd ⟨hp, hpos, hq⟩ hp'
  · exact absurd ⟨hq, hpos, hp⟩ hq'

/-- What is shadowed has no labels but those of others. -/
theorem image_labelOf_diff :
    labelOf '' (drifting old new \ shadowed old new) = labelOf '' drifting old new := by
  apply Set.Subset.antisymm (Set.image_mono Set.sdiff_subset)
  rintro - ⟨p, hp, rfl⟩
  by_cases hshadowed : p ∈ shadowed old new
  · exact ⟨(labelOf p, 0), ⟨hshadowed.2.2, not_mem_shadowed_zero _⟩, labelOf_zero _⟩
  · exact ⟨p, ⟨hp, hshadowed⟩, rfl⟩

/-- Records that drift have an entry each but for those that are shadowed, and under a label that only
one of them has are the changes of that record. -/
theorem length_diff_compare (old new : Records) :
    (compare old.items new.items).diff.length + (shadowed old.items new.items).encard =
      (drifting old.items new.items).encard ∧
    ∀ p ∈ drifting old.items new.items,
      (∀ q ∈ drifting old.items new.items, labelOf q = labelOf p → q = p) →
      KeyMap.get? (compare old.items new.items).diff (labelOf p) =
        some (report (changesAt old.items new.items p)) := by
  have hsubset : shadowed old.items new.items ⊆ drifting old.items new.items := fun _ hp ↦ hp.1
  refine ⟨?_, fun p hp hunique ↦ get?_diff_of_unique hp hunique⟩
  rw [← encard_labels, ← image_labelOf_diff, injOn_labelOf.encard_image,
    Set.encard_sdiff_add_encard_of_subset hsubset]

def namedRecords (rs : List (String × String)) : Records where
  items := rs.map fun r ↦ namedRecord r.1 r.2
  canonical := by
    have hkeys : ["command", "id"].Pairwise (· < ·) := by decide
    refine List.forall_mem_map.mpr fun r _ ↦ canonical_obj_iff.mpr ⟨?_, by simp⟩
    exact List.pairwise_map.mp hkeys

def sharedOld : Records := namedRecords [("app", "run"), ("app", "stop")]

def sharedNew : Records := namedRecords [("app", "run"), ("app", "kill")]

theorem length_diff_compare_shared :
    (compare sharedOld.items sharedNew.items).diff.length +
      (shadowed sharedOld.items sharedNew.items).encard =
        (drifting sharedOld.items sharedNew.items).encard ∧
    KeyMap.get? (compare sharedOld.items sharedNew.items).diff "app[1]" = some (report
      [⟨.valuesChanged, [.key "command", .index 0], some (.str "stop"), some (.str "kill")⟩]) := by
  have hlabel : labelOf ("app", 1) = "app[1]" := by decide +kernel
  have hchanges : changesAt sharedOld.items sharedNew.items ("app", 1) =
      [⟨.valuesChanged, [.key "command", .index 0], some (.str "stop"), some (.str "kill")⟩] := by
    decide +kernel
  have hsecond : ("app", 1) ∈ drifting sharedOld.items sharedNew.items := by
    rw [mem_drifting_iff, hchanges]
    exact List.cons_ne_nil _ _
  have hfirst : ("app[1]", 0) ∉ drifting sharedOld.items sharedNew.items := by
    rw [mem_drifting_iff]
    decide +kernel
  have hunique : ∀ q ∈ drifting sharedOld.items sharedNew.items,
      labelOf q = labelOf ("app", 1) → q = ("app", 1) := by
    intro q hq h
    rcases labelOf_eq_cases h with heq | ⟨-, heq⟩ | ⟨-, rfl⟩
    · exact heq
    · exact absurd (congrArg Prod.snd heq) Nat.one_ne_zero
    · exact absurd (hlabel ▸ hq) hfirst
  obtain ⟨hcount, hentry⟩ := length_diff_compare sharedOld sharedNew
  refine ⟨hcount, ?_⟩
  rw [← hlabel, ← hchanges]
  exact hentry ("app", 1) hsecond hunique

/-- Two records drift and one entry is left: the id of the last record is the label of the second. -/
theorem exists_overwritten_entry : ∃ old new : Records,
    (compare old.items new.items).diff.length ≠ (drifting old.items new.items).encard := by
  let old := namedRecords [("app", "run"), ("app", "stop"), ("app[1]", "run")]
  let new := namedRecords [("app", "run"), ("app", "kill"), ("app[1]", "exec")]
  have hentries : (compare old.items new.items).diff.length = 1 := by decide +kernel
  have hpairs : {("app", 1), ("app[1]", 0)} ⊆ drifting old.items new.items := by
    rintro p (rfl | rfl) <;> exact mem_drifting_iff.mpr (by decide +kernel)
  have htwo := Set.encard_le_encard hpairs
  rw [Set.encard_pair (by decide)] at htwo
  refine ⟨old, new, fun h ↦ ?_⟩
  rw [← h, hentries] at htwo
  exact absurd htwo (by decide)

end ConfidentialPolicy.DriftReport

import ConfidentialPolicy.Proofs.Json.Difference
import ConfidentialPolicy.Proofs.Json.Difference.Truth

namespace ConfidentialPolicy.Json

variable {v w w' : Json}

/-- The changes between two values that are at the values themselves hold the new one. -/
theorem new_of_path_eq_nil {c : Change} (hv : v.Canonical) (hw : w.Canonical)
    (hc : c ∈ difference v w) (hpath : c.path = []) : c.new = some w := by
  have hnew := (holds_of_mem_difference hv hw hc).at?_new
  rw [hpath, at?_nil] at hnew
  exact hnew.symm

theorem new_of_path_eq_singleton {c : Change} {s : Step} {x y : Option Json}
    (hx : ∀ v ∈ x, v.Canonical) (hy : ∀ w ∈ y, w.Canonical) (hc : c ∈ partChanges s x y)
    (hpath : c.path = [s]) : c.new = y := by
  cases x with
  | none =>
    cases y with
    | none => cases hc
    | some y => rw [List.mem_singleton.mp hc]
  | some x =>
    cases y with
    | none => rw [List.mem_singleton.mp hc]
    | some y =>
      obtain ⟨d, hd, rfl⟩ := List.mem_map.mp hc
      have hnil : d.path = [] := List.tail_eq_of_cons_eq hpath
      have hnew : d.new = some y := new_of_path_eq_nil (hx x rfl) (hy y rfl) hd hnil
      exact hnew

/-- Where no change is at the values themselves, they are equal or compared part by part. -/
theorem eq_or_alike (hi : v.Integral) (h : ∀ c ∈ difference v w, c.path ≠ []) :
    v = w ∨ Alike v w := by
  by_cases halike : Alike v w
  · exact .inr halike
  · rw [difference_of_not_alike halike, leafDifference] at h
    split at h
    · next hsame => exact .inl ((same_iff_eq hi).mp ((sameLeaf_iff halike).mp hsame))
    · exact absurd rfl (h _ List.mem_cons_self)

theorem alike_of_hasParts (hi : v.Integral) (hparts : v.kind.HasParts)
    (h : ∀ c ∈ difference v w, c.path ≠ []) : Alike v w := by
  rcases eq_or_alike hi h with rfl | halike
  · exact ⟨rfl, hparts⟩
  · exact halike

theorem eq_of_not_hasParts (hi : v.Integral) (hparts : ¬ v.kind.HasParts)
    (h : ∀ c ∈ difference v w, c.path ≠ []) : v = w :=
  (eq_or_alike hi h).resolve_right fun halike ↦ hparts halike.hasParts

/-- The changes of a part are those whose paths begin with the step to it. -/
theorem mem_partChanges_iff {s : Step} {c : Change} (h : Alike v w) (hv : v.Canonical)
    (hw : w.Canonical) : c ∈ partChanges s (v.part? s) (w.part? s) ↔
      c ∈ difference v w ∧ ∃ path, c.path = s :: path := by
  rw [mem_difference_of_alike h hv hw]
  constructor
  · exact fun hc ↦ ⟨⟨s, hc⟩, exists_path_of_mem_partChanges hc⟩
  · rintro ⟨⟨t, hc⟩, path, hpath⟩
    obtain ⟨path', hpath'⟩ := exists_path_of_mem_partChanges hc
    rw [(List.cons.inj (hpath.symm.trans hpath')).1]
    exact hc

theorem isSome_eq_of_path_ne_singleton {s : Step} {x y : Option Json}
    (h : ∀ c ∈ partChanges s x y, c.path ≠ [s]) : x.isSome = y.isSome := by
  cases x with
  | none =>
    cases y with
    | none => rfl
    | some y => exact absurd rfl (h _ List.mem_cons_self)
  | some x =>
    cases y with
    | none => exact absurd rfl (h _ List.mem_cons_self)
    | some y => rfl

theorem under_injective (s : Step) : Function.Injective (Change.under s) := by
  rintro ⟨kind, path, old, new⟩ ⟨kind', path', old', new'⟩ h
  simpa [Change.under] using h

/-- The new value of a part is known from the changes of the part. -/
theorem part_eq_of_mem_iff {s : Step} {x y y' : Option Json} (hx : ∀ v ∈ x, v.Canonical)
    (hy : ∀ w ∈ y, w.Canonical) (hy' : ∀ w ∈ y', w.Canonical)
    (inner : ∀ v ∈ x, ∀ w ∈ y, ∀ w' ∈ y',
      (∀ c, c ∈ difference v w ↔ c ∈ difference v w') → w = w')
    (h : ∀ c, c ∈ partChanges s x y ↔ c ∈ partChanges s x y') : y = y' := by
  by_cases hwhole : ∃ c ∈ partChanges s x y, c.path = [s]
  · obtain ⟨c, hc, hpath⟩ := hwhole
    have hnew := new_of_path_eq_singleton hx hy hc hpath
    exact hnew.symm.trans (new_of_path_eq_singleton hx hy' ((h c).mp hc) hpath)
  · have hne : ∀ c ∈ partChanges s x y, c.path ≠ [s] := fun c hc hpath ↦ hwhole ⟨c, hc, hpath⟩
    have hne' : ∀ c ∈ partChanges s x y', c.path ≠ [s] := fun c hc ↦ hne c ((h c).mpr hc)
    have hy_some := isSome_eq_of_path_ne_singleton hne
    have hy'_some := isSome_eq_of_path_ne_singleton hne'
    cases x with
    | none =>
      have hnone : y = none := Option.not_isSome_iff_eq_none.mp (by simp [← hy_some])
      have hnone' : y' = none := Option.not_isSome_iff_eq_none.mp (by simp [← hy'_some])
      exact hnone.trans hnone'.symm
    | some v =>
      obtain ⟨w, rfl⟩ := Option.isSome_iff_exists.mp hy_some.symm
      obtain ⟨w', rfl⟩ := Option.isSome_iff_exists.mp hy'_some.symm
      refine congrArg some (inner v rfl w rfl w' rfl fun c ↦ ?_)
      have hc := h (c.under s)
      simpa only [partChanges, List.mem_map_of_injective (under_injective s)] using hc

/-- The changes from a value are those to one value only. -/
theorem eq_of_mem_difference_iff (hi : v.Integral) (hv : v.Canonical) (hw : w.Canonical)
    (hw' : w'.Canonical) (h : ∀ c, c ∈ difference v w ↔ c ∈ difference v w') : w = w' := by
  induction v using induct_parts generalizing w w' with
  | step v ih =>
    -- Both new values are replaced as a whole, or neither is.
    by_cases hwhole : ∃ c ∈ difference v w, c.path = []
    · obtain ⟨c, hc, hpath⟩ := hwhole
      have hnew := new_of_path_eq_nil hv hw hc hpath
      exact Option.some.inj (hnew.symm.trans (new_of_path_eq_nil hv hw' ((h c).mp hc) hpath))
    · have hne : ∀ c ∈ difference v w, c.path ≠ [] := fun c hc hpath ↦ hwhole ⟨c, hc, hpath⟩
      have hne' : ∀ c ∈ difference v w', c.path ≠ [] := fun c hc ↦ hne c ((h c).mpr hc)
      by_cases hparts : v.kind.HasParts
      · have halike := alike_of_hasParts hi hparts hne
        have halike' := alike_of_hasParts hi hparts hne'
        refine (halike.symm.trans halike').eq_of_part?_eq hw hw' fun s ↦ ?_
        have hmem (c : Change) : c ∈ partChanges s (v.part? s) (w.part? s) ↔
            c ∈ partChanges s (v.part? s) (w'.part? s) := by
          rw [mem_partChanges_iff halike hv hw, mem_partChanges_iff halike' hv hw', h c]
        exact part_eq_of_mem_iff (fun _ ↦ hv.part) (fun _ ↦ hw.part) (fun _ ↦ hw'.part)
          (fun x hx y hy y' hy' ↦
            ih s x hx (hi.part hx) (hv.part hx) (hw.part hy) (hw'.part hy')) hmem
      · exact (eq_of_not_hasParts hi hparts hne).symm.trans (eq_of_not_hasParts hi hparts hne')

/-- From a value, the changes to another one determine that one; there are none to itself, and some
to every other. -/
theorem difference_lossless (hi : v.Integral) (hv : v.Canonical) (hw : w.Canonical)
    (hw' : w'.Canonical) :
    (difference v w = difference v w' ↔ w = w') ∧ difference v v = [] ∧
      (difference v w = [] ↔ v = w) := by
  refine ⟨⟨fun h ↦ ?_, fun h ↦ by rw [h]⟩, ?_, difference_eq_nil_iff hv hi hw⟩
  · exact eq_of_mem_difference_iff hi hv hw hw' fun c ↦ by rw [h]
  · exact (difference_eq_nil_iff hv hi hv).mpr rfl

theorem integral_earlierRecord : earlierRecord.Integral := by
  have hword : (Number.int 2).IsWord := ⟨by decide, by decide⟩
  simp [earlierRecord, integral_obj_iff, hword]

theorem difference_lossless_laterRecord :
    difference earlierRecord laterRecord ≠
      difference earlierRecord (laterRecord.erase "command") ∧
    difference earlierRecord earlierRecord = [] ∧ difference earlierRecord laterRecord ≠ [] := by
  have hshort : (laterRecord.erase "command").Canonical := by
    rw [← show (laterRecord.erase "command").canonicalize = laterRecord.erase "command" by
      decide +kernel]
    exact canonical_canonicalize _
  obtain ⟨hsame, hself, hnil⟩ := difference_lossless integral_earlierRecord
    canonical_earlierRecord canonical_laterRecord hshort
  have hne : laterRecord ≠ laterRecord.erase "command" := by decide +kernel
  have hne' : earlierRecord ≠ laterRecord := by decide +kernel
  exact ⟨fun h ↦ hne (hsame.mp h), hself, fun h ↦ hne' (hnil.mp h)⟩

end ConfidentialPolicy.Json

import ConfidentialPolicy.Proofs.Json.Difference.Parts
import ConfidentialPolicy.Proofs.Json.Sameness
import Mathlib.Data.List.Perm.Basic

namespace ConfidentialPolicy.Json

def ChangeKind.reversed : ChangeKind → ChangeKind
  | .valuesChanged => .valuesChanged
  | .typeChanged => .typeChanged
  | .itemAdded => .itemRemoved
  | .itemRemoved => .itemAdded
  | .keyAdded => .keyRemoved
  | .keyRemoved => .keyAdded

def Change.reversed (c : Change) : Change :=
  { kind := c.kind.reversed, path := c.path, old := c.new, new := c.old }

theorem sameLeaf_comm (v w : Json) : sameLeaf v w = sameLeaf w v := by
  cases v with
  | num m =>
    cases w with
    | num n =>
      rw [Bool.eq_iff_iff]
      simp only [sameLeaf, Number.same_iff]
      exact eq_comm
    | null | bool | str | arr | obj => rfl
  | null | bool | str | arr | obj => cases w <;> simp [sameLeaf, Bool.beq_comm]

theorem leafDifference_reversed (v w : Json) :
    leafDifference w v = (leafDifference v w).map Change.reversed := by
  rw [leafDifference, leafDifference, sameLeaf_comm w v]
  split
  · rfl
  · by_cases h : v.kind = w.kind
    · simp [h, Change.reversed, ChangeKind.reversed]
    · simp [h, Ne.symm h, Change.reversed, ChangeKind.reversed]

theorem partChanges_reversed {s : Step} {x y : Option Json}
    (h : ∀ v ∈ x, ∀ w ∈ y, (difference w v).Perm ((difference v w).map Change.reversed)) :
    (partChanges s y x).Perm ((partChanges s x y).map Change.reversed) := by
  cases x with
  | none =>
    cases y with
    | none => exact .refl _
    | some w => cases s <;> exact .refl _
  | some v =>
    cases y with
    | none => cases s <;> exact .refl _
    | some w =>
      have hunder := (h v rfl w rfl).map (Change.under s)
      rw [partChanges, partChanges, List.map_map]
      rw [List.map_map] at hunder
      exact hunder

theorem steps_perm {v w : Json} (h : Alike v w) (hv : v.Canonical) (hw : w.Canonical) :
    (steps w v).Perm (steps v w) := by
  refine (List.perm_ext_iff_of_nodup (nodup_steps hw hv) (nodup_steps hv hw)).mpr fun s ↦ ?_
  rw [mem_steps_iff h, mem_steps_iff h.symm]
  exact or_comm

/-- The changes from one value to another are, in some order, those in the other direction,
reversed. -/
theorem difference_perm_reversed {v w : Json} (hv : v.Canonical) (hw : w.Canonical) :
    (difference w v).Perm ((difference v w).map Change.reversed) := by
  induction v using induct_parts generalizing w with
  | step v ih =>
    by_cases h : Alike v w
    -- The steps come in another order from the other side, and so do the changes.
    · rw [difference_of_alike h hv hw, difference_of_alike h.symm hw hv, List.map_flatMap]
      refine (steps_perm h hv hw).flatMap fun s _ ↦ partChanges_reversed fun x hx y hy ↦ ?_
      exact ih s x hx (hv.part hx) (hw.part hy)
    · have h' : ¬ Alike w v := fun hwv ↦ h hwv.symm
      rw [difference_of_not_alike h, difference_of_not_alike h', leafDifference_reversed]

/-- Coming back, what was added is removed before what was removed is added. -/
theorem difference_perm_reversed_laterRecord :
    (difference laterRecord earlierRecord).map Change.reversed ≠
      difference earlierRecord laterRecord ∧
    (difference laterRecord earlierRecord).Perm
      ((difference earlierRecord laterRecord).map Change.reversed) :=
  ⟨by decide +kernel, difference_perm_reversed canonical_earlierRecord canonical_laterRecord⟩

end ConfidentialPolicy.Json

import ConfidentialPolicy.Proofs.Json.Value
import Mathlib.Data.List.Forall2

namespace ConfidentialPolicy

def Number.unsigned : Number → Number
  | .int n => .int n
  | .float x => .float (if x.isZero then .zero false else x)

theorem Binary64.same_iff {x y : Binary64} : x.same y = true ↔
    (if x.isZero then zero false else x) = if y.isZero then zero false else y := by
  have hzero : (zero false).isZero = true := rfl
  simp only [same, Bool.or_eq_true, beq_iff_eq, Bool.and_eq_true]
  constructor
  · rintro (rfl | ⟨hx, hy⟩)
    · rfl
    · rw [if_pos hx, if_pos hy]
  · intro h
    split at h <;> split at h
    · next hx hy => exact .inr ⟨hx, hy⟩
    · next hy => exact absurd (h ▸ hzero) hy
    · next hx _ => exact absurd (h ▸ hzero) hx
    · exact .inl h

theorem Number.same_iff {m n : Number} : m.same n = true ↔ m.unsigned = n.unsigned := by
  cases m <;> cases n <;> simp [same, unsigned, Binary64.same_iff]

namespace Json

def unsigned (v : Json) : Json := v.mapNumbers Number.unsigned

theorem unsigned_arr (vs : List Json) : unsigned (.arr vs) = .arr (vs.map unsigned) :=
  mapNumbers_arr vs

theorem unsigned_obj (ms : List (String × Json)) :
    unsigned (.obj ms) = .obj (ms.map fun m ↦ (m.1, unsigned m.2)) :=
  mapNumbers_obj ms

/-- The values differ in the signs of zeros only. -/
def Same (v w : Json) : Prop := v.unsigned = w.unsigned

/-- Lists of the same values, place by place. -/
theorem forall₂_same_iff {vs ws : List Json} :
    List.Forall₂ Same vs ws ↔ vs.map unsigned = ws.map unsigned := by
  rw [← List.forall₂_eq_eq_eq, List.forall₂_map_left_iff, List.forall₂_map_right_iff]
  rfl

theorem same_arr_iff {vs ws : List Json} :
    Same (.arr vs) (.arr ws) ↔ List.Forall₂ Same vs ws := by
  rw [forall₂_same_iff, Same, unsigned_arr, unsigned_arr, arr.injEq]

theorem integral_unsigned_iff {v : Json} : v.unsigned.Integral ↔ v.Integral := by
  induction v with
  | null | bool | str => rfl
  | num n => cases n <;> simp [unsigned, mapNumbers, Number.unsigned, Number.IsWord]
  | arr vs ih =>
    simp only [unsigned_arr, integral_arr_iff, List.forall_mem_map]
    exact forall₂_congr ih
  | obj ms ih =>
    simp only [unsigned_obj, integral_obj_iff, List.forall_mem_map]
    exact forall₂_congr ih

theorem unsigned_eq_self {v : Json} (h : v.Integral) : v.unsigned = v := by
  refine mapNumbers_eq_self (Every.imp (fun v hv ↦ ?_) h)
  cases v with
  | num n =>
    cases n with
    | int => rfl
    | float => exact absurd hv id
  | null | bool | str | arr | obj => trivial

/-- A value whose numbers are words is the same as no other value. -/
theorem same_iff_eq {v w : Json} (hv : v.Integral) : Same v w ↔ v = w := by
  constructor
  · intro h
    rw [Same, unsigned_eq_self hv] at h
    have hw : w.Integral := integral_unsigned_iff.mp (h ▸ hv)
    rw [h, unsigned_eq_self hw]
  · rintro rfl
    rfl

end Json

end ConfidentialPolicy

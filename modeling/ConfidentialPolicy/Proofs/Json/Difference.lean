import ConfidentialPolicy.Proofs.Json.Difference.Parts
import ConfidentialPolicy.Proofs.Json.Sameness

namespace ConfidentialPolicy.Json

theorem part?_unsigned (v : Json) (s : Step) : v.unsigned.part? s = (v.part? s).map unsigned := by
  cases v with
  | arr vs =>
    rw [unsigned_arr]
    cases s with
    | index i => exact List.getElem?_map
    | key => rfl
  | obj ms =>
    rw [unsigned_obj]
    cases s with
    | index => rfl
    | key k => exact KeyMap.get?_mapValues unsigned ms k
  | null | bool | num | str => rfl

theorem kind_unsigned (v : Json) : v.unsigned.kind = v.kind := by
  cases v <;> rfl

theorem same_iff_of_alike {v w : Json} (h : Alike v w) (hv : v.Canonical) (hw : w.Canonical) :
    Same v w ↔ ∀ s, (v.part? s).map unsigned = (w.part? s).map unsigned := by
  have hunsigned : Alike v.unsigned w.unsigned := by
    constructor
    · rw [kind_unsigned, kind_unsigned, h.kind_eq]
    · rw [kind_unsigned]
      exact h.hasParts
  simp only [← part?_unsigned]
  constructor
  · intro hsame s
    rw [hsame]
  · exact hunsigned.eq_of_part?_eq (canonical_mapNumbers hv) (canonical_mapNumbers hw)

theorem sameLeaf_iff {v w : Json} (h : ¬ Alike v w) : sameLeaf v w = true ↔ Same v w := by
  cases v with
  | arr vs =>
    cases w with
    | arr ws => exact absurd (alike_arr vs ws) h
    | null | bool | num | str | obj => simp [sameLeaf, Same, unsigned, mapNumbers]
  | obj ms =>
    cases w with
    | obj ns => exact absurd (alike_obj ms ns) h
    | null | bool | num | str | arr => simp [sameLeaf, Same, unsigned, mapNumbers]
  | null | bool | num | str =>
    cases w <;> simp [sameLeaf, Same, unsigned, mapNumbers, Number.same_iff]

theorem leafDifference_eq_nil_iff {v w : Json} (h : ¬ Alike v w) :
    leafDifference v w = [] ↔ Same v w := by
  rw [← sameLeaf_iff h, leafDifference]
  split
  · next hsame => simp [hsame]
  · next hsame => simp [hsame]

def DifferenceExact (v : Json) : Prop :=
  ∀ w, w.Canonical → (difference v w = [] ↔ Same v w)

theorem partChanges_eq_nil_iff {s : Step} {x y : Option Json} (hx : ∀ v ∈ x, v.DifferenceExact)
    (hy : ∀ w ∈ y, w.Canonical) : partChanges s x y = [] ↔ x.map unsigned = y.map unsigned := by
  cases x with
  | none => cases y <;> simp [partChanges]
  | some v =>
    cases y with
    | none => simp [partChanges]
    | some w =>
      rw [partChanges, List.map_eq_nil_iff, hx v rfl w (hy w rfl), Option.map_some,
        Option.map_some, Option.some.injEq, Same]

theorem differenceExact {v : Json} (hc : v.Canonical) : v.DifferenceExact := by
  induction v using induct_parts with
  | step v ih =>
    intro w hw
    by_cases h : Alike v w
    · rw [difference_eq_nil_iff_of_alike h hc hw, same_iff_of_alike h hc hw]
      refine forall_congr' fun s ↦ partChanges_eq_nil_iff (fun x hx ↦ ?_) fun _ ↦ hw.part
      exact ih s x hx (hc.part hx)
    · rw [difference_of_not_alike h]
      exact leafDifference_eq_nil_iff h

/-- Values in canonical form do not differ just where they are the same. -/
theorem difference_eq_nil_iff_same {v w : Json} (hv : v.Canonical) (hw : w.Canonical) :
    difference v w = [] ↔ Same v w :=
  differenceExact hv w hw

theorem difference_eq_nil_iff {v w : Json} (hc : v.Canonical) (hi : v.Integral)
    (hw : w.Canonical) : difference v w = [] ↔ v = w :=
  (difference_eq_nil_iff_same hc hw).trans (same_iff_eq hi)

theorem eq_of_difference_eq_nil {v w : Json} (h : difference v w = []) (hv : v.Canonical)
    (hw : w.Canonical) (hi : w.Integral) : v = w :=
  ((same_iff_eq hi).mp ((difference_eq_nil_iff_same hv hw).mp h).symm).symm

theorem ofChanges_eq_nil_iff {cs : List Change} : Groups.ofChanges cs = [] ↔ cs = [] := by
  constructor
  · exact not_imp_not.mp fun h ↦ KeyMap.foldl_ne_nil (f := Groups.add)
      (fun g c ↦ KeyMap.insert_ne_nil _ _ g) h []
  · rintro rfl
    rfl

theorem relabelMembers_eq_nil_iff {ms : List (String × Json)} :
    relabelMembers ms = [] ↔ ms = [] := by
  cases ms <;> simp [relabelMembers]

theorem report_eq_iff {cs : List Change} : report cs = .obj [] ↔ cs = [] := by
  simp only [report, Groups.toJson, relabel, object, obj.injEq, KeyMap.ofList_eq_nil_iff,
    relabelMembers_eq_nil_iff, List.map_eq_nil_iff, ofChanges_eq_nil_iff]

end ConfidentialPolicy.Json

import ConfidentialPolicy.Proofs.Json.Path
import ConfidentialPolicy.Proofs.Json.Reading

namespace ConfidentialPolicy.Json

variable {u v w : Json}

def face : Json → Json
  | .arr _ => .arr []
  | .obj _ => .obj []
  | v => v

/-- Every look-up finds the same in both values; members may come in another order. -/
def SameContent (v w : Json) : Prop := ∀ path, (v.at? path).map face = (w.at? path).map face

theorem SameContent.symm (h : SameContent v w) : SameContent w v := fun path ↦ (h path).symm

theorem SameContent.trans (h : SameContent u v) (h' : SameContent v w) : SameContent u w :=
  fun path ↦ (h path).trans (h' path)

theorem kind_face (v : Json) : (face v).kind = v.kind := by
  cases v <;> rfl

theorem face_eq_self (h : ¬ v.kind.HasParts) : face v = v := by
  cases v with
  | arr vs => exact absurd (.inl rfl) h
  | obj ms => exact absurd (.inr rfl) h
  | null | bool | num | str => rfl

theorem SameContent.kind_eq (h : SameContent v w) : v.kind = w.kind := by
  have hface : face v = face w := Option.some.inj (h [])
  rw [← kind_face v, hface, kind_face]

theorem SameContent.rel_part (h : SameContent v w) (s : Step) :
    Option.Rel SameContent (v.part? s) (w.part? s) := by
  have hpart (path : List Step) : ((v.part? s).bind (at? · path)).map face =
      ((w.part? s).bind (at? · path)).map face := h (s :: path)
  cases hx : v.part? s with
  | none =>
    cases hy : w.part? s with
    | none => exact .none
    | some y =>
      have hnil := hpart []
      rw [hx, hy] at hnil
      cases hnil
  | some x =>
    cases hy : w.part? s with
    | none =>
      have hnil := hpart []
      rw [hx, hy] at hnil
      cases hnil
    | some y =>
      refine .some fun path ↦ ?_
      have hpath := hpart path
      rwa [hx, hy] at hpath

/-- In canonical form content is all there is. -/
theorem eq_of_sameContent (hv : v.Canonical) (hw : w.Canonical) (h : SameContent v w) : v = w := by
  induction v using induct_parts generalizing w with
  | step v ih =>
    -- A value without parts is its own face; one with parts is made up of them.
    by_cases hparts : v.kind.HasParts
    · have halike : Alike v w := ⟨h.kind_eq, hparts⟩
      refine halike.eq_of_part?_eq hv hw fun s ↦ ?_
      have hrel := h.rel_part s
      cases hx : v.part? s with
      | none =>
        rw [hx] at hrel
        cases hy : w.part? s with
        | none => rfl
        | some y =>
          rw [hy] at hrel
          cases hrel
      | some x =>
        rw [hx] at hrel
        cases hy : w.part? s with
        | none =>
          rw [hy] at hrel
          cases hrel
        | some y =>
          rw [hy] at hrel
          cases hrel with
          | some hxy => exact congrArg some (ih s x hx (hv.part hx) (hw.part hy) hxy)
    · have hface : face v = face w := Option.some.inj (h [])
      rwa [face_eq_self hparts, face_eq_self (h.kind_eq ▸ hparts)] at hface

def KeysUnique : Json → Prop :=
  Every fun v ↦ match v with
    | .obj ms => (KeyMap.keys ms).Nodup
    | _ => True

theorem keysUnique_obj_iff {ms : List (String × Json)} :
    KeysUnique (.obj ms) ↔ (KeyMap.keys ms).Nodup ∧ ∀ m ∈ ms, KeysUnique m.2 := by
  simp only [KeysUnique, every_obj_iff]

theorem Canonical.keysUnique (h : v.Canonical) : v.KeysUnique := by
  refine Every.imp (fun v hv ↦ ?_) h
  cases v with
  | obj ms => exact hv.nodup_keys
  | null | bool | num | str | arr => trivial

theorem face_canonicalize (v : Json) : face v.canonicalize = face v := by
  cases v <;> rfl

theorem sameContent_canonicalize (h : v.KeysUnique) : SameContent v.canonicalize v := by
  intro path
  induction path generalizing v with
  | nil => exact congrArg some (face_canonicalize v)
  | cons s path ih =>
    have hkeys (ms : Members) (hms : v = .obj ms) : (KeyMap.keys ms).Nodup := by
      subst hms
      exact (keysUnique_obj_iff.mp h).1
    rw [at?_cons, at?_cons, part?_canonicalize hkeys]
    cases hx : v.part? s with
    | none => rfl
    | some x => exact ih (Every.part h hx)

theorem canonicalize_eq_iff (hv : v.KeysUnique) (hw : w.KeysUnique) :
    v.canonicalize = w.canonicalize ↔ SameContent v w := by
  have hv' := sameContent_canonicalize hv
  have hw' := sameContent_canonicalize hw
  constructor
  · intro h
    rw [h] at hv'
    exact hv'.symm.trans hw'
  · intro h
    exact eq_of_sameContent (canonical_canonicalize v) (canonical_canonicalize w)
      ((hv'.trans h).trans hw'.symm)

theorem integral_canonicalize (h : v.Integral) : v.canonicalize.Integral := by
  induction v with
  | null | bool | num | str => exact h
  | arr vs ih =>
    simp only [canonicalize, canonicalizeItems_eq_map, integral_arr_iff, List.forall_mem_map]
    exact fun v hv ↦ ih v hv (integral_arr_iff.mp h v hv)
  | obj ms ih =>
    simp only [canonicalize, canonicalizeMembers_eq_map]
    refine integral_obj_iff.mpr fun n hn ↦ ?_
    obtain ⟨m, hm, rfl⟩ := List.mem_map.mp (KeyMap.mem_of_mem_ofList hn)
    exact ih m hm (integral_obj_iff.mp h m hm)

theorem parse?_render_of_integral (hi : v.Integral) (hd : v.depth ≤ maxDepth) (style : Style) :
    parse? (v.render style) = some v.canonicalize := by
  have hdepth := (depth_canonicalize_le v).trans hd
  rw [render, text, parse?_write_of_integral (integral_canonicalize hi) hdepth,
    canonicalize_eq_self (canonical_canonicalize v)]

/-- No object has a key twice, numbers are words, and the text is not too deep to be read. -/
structure Renderable (v : Json) : Prop where
  keysUnique : v.KeysUnique
  integral : v.Integral
  depth_le : v.depth ≤ maxDepth

theorem render_eq_iff (hv : v.Renderable) (hw : w.Renderable) (style : Style) :
    v.render style = w.render style ↔ SameContent v w := by
  rw [← canonicalize_eq_iff hv.keysUnique hw.keysUnique]
  constructor
  · intro h
    have hread := parse?_render_of_integral hv.integral hv.depth_le style
    rw [h, parse?_render_of_integral hw.integral hw.depth_le style] at hread
    exact (Option.some.inj hread).symm
  · intro h
    rw [render, render, h]

/-- Both texts of a value read back to the value with its members sorted. Values of one content, and
no others, have one text; in canonical form these are equal values. -/
theorem render_lossless (hv : v.Renderable) (hw : w.Renderable) :
    (∀ style, parse? (v.render style) = some v.canonicalize ∧
      (v.render style = w.render style ↔ SameContent v w)) ∧
    parse? v.compact = parse? v.pretty ∧
    SameContent v.canonicalize v ∧ v.canonicalize.canonicalize = v.canonicalize ∧
    (v.Canonical → v.canonicalize = v) ∧
    (v.Canonical → w.Canonical → (SameContent v w ↔ v = w)) := by
  have hread (style : Style) : parse? (v.render style) = some v.canonicalize :=
    parse?_render_of_integral hv.integral hv.depth_le style
  refine ⟨fun style ↦ ⟨hread style, render_eq_iff hv hw style⟩, ?_,
    sameContent_canonicalize hv.keysUnique,
    canonicalize_eq_self (canonical_canonicalize v), canonicalize_eq_self, ?_⟩
  · exact (hread .compact).trans (hread .pretty).symm
  · intro hcv hcw
    refine ⟨eq_of_sameContent hcv hcw, ?_⟩
    rintro rfl
    exact fun path ↦ rfl

def scatteredMembers : Members := [
  ("z", .arr [.num (.int minInt64), .num (.int Text.maxWord), .bool false]),
  ("\"\\\n\x01", .obj [("a", .arr []), ("b", .obj [])])]

theorem renderable_of_perm_scatteredMembers {ms : Members} (h : ms.Perm scatteredMembers) :
    Renderable (.obj ms) := by
  have hkeys : (KeyMap.keys ms).Nodup := (h.map Prod.fst).nodup_iff.mpr (by decide +kernel)
  have hsorted : ∀ m ∈ scatteredMembers, m.2.canonicalize = m.2 := by decide +kernel
  have hintegral : ∀ m ∈ scatteredMembers, m.2.Integral := by
    have hmin : (Number.int minInt64).IsWord := ⟨by decide, by decide⟩
    have hmax : (Number.int Text.maxWord).IsWord := ⟨by decide, by decide⟩
    simp [scatteredMembers, integral_obj_iff, hmin, hmax]
  have hdepth : ∀ m ∈ scatteredMembers, m.2.depth ≤ 2 := by decide +kernel
  refine ⟨keysUnique_obj_iff.mpr ⟨hkeys, fun m hm ↦ ?_⟩, ?_, ?_⟩
  · rw [← hsorted m (h.mem_iff.mp hm)]
    exact (canonical_canonicalize m.2).keysUnique
  · exact integral_obj_iff.mpr fun m hm ↦ hintegral m (h.mem_iff.mp hm)
  · exact (depth_obj_le fun m hm ↦ hdepth m (h.mem_iff.mp hm)).trans (by decide)

theorem render_lossless_scatteredMembers :
    Renderable (.obj scatteredMembers) ∧ Renderable (.obj scatteredMembers.reverse) ∧
    parse? (pretty (.obj scatteredMembers)) = some (.obj scatteredMembers.reverse) ∧
    compact (.obj scatteredMembers) = compact (.obj scatteredMembers.reverse) ∧
    SameContent (.obj scatteredMembers) (.obj scatteredMembers.reverse) := by
  have hv := renderable_of_perm_scatteredMembers (List.Perm.refl scatteredMembers)
  have hw := renderable_of_perm_scatteredMembers (List.reverse_perm scatteredMembers)
  obtain ⟨htexts, -, hcontent, -⟩ := render_lossless hv hw
  have hsort : (Json.obj scatteredMembers).canonicalize = .obj scatteredMembers.reverse := by
    decide +kernel
  rw [hsort] at htexts hcontent
  exact ⟨hv, hw, (htexts .pretty).1, (htexts .compact).2.mpr hcontent.symm, hcontent.symm⟩

end ConfidentialPolicy.Json

import ConfidentialPolicy.Json.Difference
import ConfidentialPolicy.Proofs.Json.Value

namespace ConfidentialPolicy.Json

def part? : Json → Step → Option Json
  | .arr vs, .index i => vs[i]?
  | .obj ms, .key k => KeyMap.get? ms k
  | _, _ => none

def at? : Json → List Step → Option Json
  | v, [] => some v
  | v, s :: path => (v.part? s).bind (at? · path)

@[simp] theorem at?_nil (v : Json) : v.at? [] = some v := rfl

theorem at?_cons (v : Json) (s : Step) (path : List Step) :
    v.at? (s :: path) = (v.part? s).bind (at? · path) := rfl

theorem at?_cons_of_part? {v x : Json} {s : Step} (h : v.part? s = some x) (path : List Step) :
    v.at? (s :: path) = x.at? path := by
  rw [at?_cons, h, Option.bind_some]

theorem at?_append (v : Json) (path rest : List Step) :
    v.at? (path ++ rest) = (v.at? path).bind (at? · rest) := by
  induction path generalizing v with
  | nil => rfl
  | cons s path ih =>
    simp only [List.cons_append, at?_cons, Option.bind_assoc]
    exact Option.bind_congr fun x _ ↦ ih x

/-- A path that ends in a step leads to a part of what lies before. -/
theorem at?_concat {v x : Json} {path : List Step} (h : v.at? path = some x) (s : Step) :
    v.at? (path ++ [s]) = x.part? s := by
  rw [at?_append, h, Option.bind_some, at?_cons]
  cases x.part? s <;> rfl

/-- Below a missing value there is as little as in an empty object. -/
theorem getD_at?_concat {v : Json} {path : List Step} {ms : Members}
    (h : (v.at? path).getD (.obj []) = .obj ms) (key : String) :
    (v.at? (path ++ [.key key])).getD (.obj []) = (KeyMap.get? ms key).getD (.obj []) := by
  cases hpath : v.at? path with
  | some x =>
    rw [hpath, Option.getD_some] at h
    rw [at?_concat hpath, h]
    rfl
  | none =>
    rw [hpath] at h
    cases h
    rw [at?_append, hpath]
    rfl

theorem mem_parts_of_part? {v x : Json} {s : Step} (h : v.part? s = some x) : x ∈ v.parts := by
  cases v with
  | arr vs =>
    cases s with
    | index i => exact List.mem_of_getElem? h
    | key => cases h
  | obj ms =>
    cases s with
    | index => cases h
    | key k => exact List.mem_map_of_mem (KeyMap.mem_of_get?_eq_some h)
  | null | bool | num | str => cases h

/-- Induction on the parts of a value, whether they are items or members. -/
theorem induct_parts {motive : Json → Prop}
    (step : ∀ v, (∀ s x, v.part? s = some x → motive x) → motive v) (v : Json) : motive v :=
  step v fun _ x h ↦
    have := sizeOf_lt_of_mem_parts (mem_parts_of_part? h)
    induct_parts step x
termination_by sizeOf v

theorem Every.part {p : Json → Prop} {v x : Json} {s : Step} (h : Every p v)
    (hx : v.part? s = some x) : Every p x :=
  (every_iff.mp h).2 x (mem_parts_of_part? hx)

theorem Every.at? {p : Json → Prop} {v x : Json} {path : List Step} (h : Every p v)
    (hx : v.at? path = some x) : Every p x := by
  induction path generalizing v with
  | nil =>
    cases hx
    exact h
  | cons s path ih =>
    obtain ⟨y, hy, hx⟩ := Option.bind_eq_some_iff.mp hx
    exact ih (h.part hy) hx

theorem Canonical.part {v x : Json} {s : Step} (h : v.Canonical) (hx : v.part? s = some x) :
    x.Canonical :=
  Every.part h hx

theorem Integral.part {v x : Json} {s : Step} (h : v.Integral) (hx : v.part? s = some x) :
    x.Integral :=
  Every.part h hx

theorem keys_canonicalizeMembers (ms : Members) :
    KeyMap.keys (canonicalizeMembers ms) = KeyMap.keys ms := by
  rw [canonicalizeMembers_eq_map, KeyMap.keys_mapValues]

theorem part?_canonicalize {v : Json} (h : ∀ ms, v = .obj ms → (KeyMap.keys ms).Nodup)
    (s : Step) : v.canonicalize.part? s = (v.part? s).map canonicalize := by
  cases v with
  | null | bool | num | str => rfl
  | arr vs =>
    cases s with
    | key => rfl
    | index i => rw [canonicalize, canonicalizeItems_eq_map, part?, part?, List.getElem?_map]
  | obj ms =>
    cases s with
    | index => rfl
    | key k =>
      have hkeys : (KeyMap.keys (canonicalizeMembers ms)).Nodup := by
        rw [keys_canonicalizeMembers]
        exact h ms rfl
      rw [canonicalize, part?, part?, KeyMap.get?_ofList_of_nodup hkeys,
        canonicalizeMembers_eq_map, KeyMap.get?_mapValues]

def Kind.HasParts (k : Kind) : Prop := k = .arr ∨ k = .obj

instance (k : Kind) : Decidable k.HasParts := inferInstanceAs (Decidable (_ ∨ _))

structure Alike (v w : Json) : Prop where
  kind_eq : v.kind = w.kind
  hasParts : v.kind.HasParts

theorem Alike.symm {v w : Json} (h : Alike v w) : Alike w v :=
  ⟨h.kind_eq.symm, h.kind_eq ▸ h.hasParts⟩

theorem Alike.trans {u v w : Json} (h : Alike u v) (h' : Alike v w) : Alike u w :=
  ⟨h.kind_eq.trans h'.kind_eq, h.hasParts⟩

/-- Two that are alike are two lists or two objects. -/
theorem Alike.cases {v w : Json} (h : Alike v w) :
    (∃ vs ws, v = .arr vs ∧ w = .arr ws) ∨ ∃ ms ns, v = .obj ms ∧ w = .obj ns := by
  obtain ⟨hkind, hparts⟩ := h
  cases v with
  | arr vs =>
    cases w with
    | arr ws => exact .inl ⟨vs, ws, rfl, rfl⟩
    | null | bool | num | str | obj => cases hkind
  | obj ms =>
    cases w with
    | obj ns => exact .inr ⟨ms, ns, rfl, rfl⟩
    | null | bool | num | str | arr => cases hkind
  | null | bool | num | str => simp [Kind.HasParts, kind] at hparts

theorem alike_arr (vs ws : List Json) : Alike (.arr vs) (.arr ws) := ⟨rfl, .inl rfl⟩

theorem alike_obj (ms ns : List (String × Json)) : Alike (.obj ms) (.obj ns) := ⟨rfl, .inr rfl⟩

/-- Lists, and objects with their keys in order, are nothing but their parts. -/
theorem Alike.eq_of_part?_eq {v w : Json} (h : Alike v w) (hv : v.Canonical) (hw : w.Canonical)
    (hparts : ∀ s, v.part? s = w.part? s) : v = w := by
  rcases h.cases with ⟨vs, ws, rfl, rfl⟩ | ⟨ms, ns, rfl, rfl⟩
  · exact congrArg arr (List.ext_getElem? fun i ↦ hparts (.index i))
  · refine congrArg obj (KeyMap.eq_of_get?_eq (canonical_obj_iff.mp hv).1
      (canonical_obj_iff.mp hw).1 fun k ↦ ?_)
    exact hparts (.key k)

/-- The same values are found under all paths but those that lead through a place or end on the way
to it. -/
def SameApartFrom (place : List Step) (v w : Json) : Prop :=
  ∀ path, ¬ place <+: path → ¬ path <+: place → w.at? path = v.at? path

theorem sameApartFrom_nil (v w : Json) : SameApartFrom [] v w :=
  fun _ h _ ↦ absurd List.nil_prefix h

/-- A change within one part is a change of the whole, whether the part was there or is made. -/
theorem SameApartFrom.under {v w x y : Json} {s : Step} {place : List Step}
    (h : SameApartFrom place x y) (hv : (v.part? s).getD (.obj []) = x) (hw : w.part? s = some y)
    (hother : ∀ r, r ≠ s → w.part? r = v.part? r) : SameApartFrom (s :: place) v w := by
  intro path hthrough habove
  cases path with
  | nil => exact absurd List.nil_prefix habove
  | cons r rest =>
    by_cases hr : r = s
    · subst hr
      rw [List.prefix_cons_inj] at hthrough habove
      rw [at?_cons_of_part? hw, h rest hthrough habove]
      cases hpart : v.part? r with
      | some z =>
        rw [hpart, Option.getD_some] at hv
        rw [at?_cons_of_part? hpart, hv]
      | none =>
        rw [hpart, Option.getD_none] at hv
        rw [at?_cons, hpart, Option.bind_none, ← hv]
        cases rest with
        | nil => exact absurd List.nil_prefix habove
        | cons r' rest => cases r' <;> rfl
    · rw [at?_cons, at?_cons, hother r hr]

theorem SameApartFrom.insert {ms : Members} {key : String} {x y : Json} {place : List Step}
    (h : SameApartFrom place x y) (hx : (KeyMap.get? ms key).getD (.obj []) = x) :
    SameApartFrom (.key key :: place) (.obj ms) (.obj (KeyMap.insert key y ms)) := by
  refine h.under hx ?_ fun r hr ↦ ?_
  · exact KeyMap.get?_insert_self key y ms
  · cases r with
    | index => rfl
    | key k => rw [part?, part?, KeyMap.get?_insert, if_neg fun hk ↦ hr (congrArg Step.key hk)]

theorem SameApartFrom.set {vs : List Json} {i : Nat} {x y : Json} {place : List Step}
    (h : SameApartFrom place x y) (hx : vs[i]? = some x) :
    SameApartFrom (.index i :: place) (.arr vs) (.arr (vs.set i y)) := by
  refine h.under (by rw [part?, hx, Option.getD_some]) ?_ fun r hr ↦ ?_
  · have hi : i < vs.length := (List.getElem?_eq_some_iff.mp hx).1
    rw [part?, List.getElem?_set_self hi]
  · cases r with
    | key => rfl
    | index j => rw [part?, part?, List.getElem?_set_ne fun hij ↦ hr (congrArg Step.index hij.symm)]

end ConfidentialPolicy.Json

import ConfidentialPolicy.Json.Basic
import ConfidentialPolicy.Proofs.KeyMap

namespace ConfidentialPolicy

def Number.IsWord : Number → Prop
  | .int n => Json.minInt64 ≤ n ∧ n ≤ Text.maxWord
  | .float _ => False

namespace Json

def parts : Json → List Json
  | .arr vs => vs
  | .obj ms => ms.map (·.2)
  | _ => []

theorem sizeOf_lt_of_mem_parts {v w : Json} (h : w ∈ v.parts) : sizeOf w < sizeOf v := by
  cases v with
  | arr vs =>
    have hw : sizeOf w < sizeOf vs := List.sizeOf_lt_of_mem h
    simp only [arr.sizeOf_spec]
    omega
  | obj ms =>
    obtain ⟨m, hm, rfl⟩ := List.mem_map.mp h
    have hw := List.sizeOf_lt_of_mem hm
    have hp : sizeOf m = 1 + sizeOf m.1 + sizeOf m.2 := rfl
    simp only [obj.sizeOf_spec]
    omega
  | null | bool | num | str => simp [parts] at h

@[induction_eliminator]
theorem induct {motive : Json → Prop} (null : motive .null) (bool : ∀ b, motive (.bool b))
    (num : ∀ n, motive (.num n)) (str : ∀ s, motive (.str s))
    (arr : ∀ vs, (∀ v ∈ vs, motive v) → motive (.arr vs))
    (obj : ∀ ms, (∀ m ∈ ms, motive m.2) → motive (.obj ms)) (v : Json) : motive v :=
  have inner (w : Json) (_ : w ∈ v.parts) : motive w := induct null bool num str arr obj w
  match v with
  | .null => null
  | .bool b => bool b
  | .num n => num n
  | .str s => str s
  | .arr vs => arr vs inner
  | .obj ms => obj ms fun m hm ↦ inner m.2 (List.mem_map_of_mem hm)
termination_by sizeOf v
decreasing_by exact sizeOf_lt_of_mem_parts ‹_›

theorem str?_eq_some_iff {v : Json} {s : String} : v.str? = some s ↔ v = .str s := by
  cases v <;> simp [str?]

theorem items?_eq_some_iff {v : Json} {vs : List Json} : v.items? = some vs ↔ v = .arr vs := by
  cases v <;> simp [items?]

/-- A property of a value and of all values within it. -/
inductive Every (p : Json → Prop) : Json → Prop
  | intro {v : Json} (own : p v) (inner : ∀ w ∈ v.parts, Every p w) : Every p v

theorem every_iff {p : Json → Prop} {v : Json} :
    Every p v ↔ p v ∧ ∀ w ∈ v.parts, Every p w :=
  ⟨fun ⟨own, inner⟩ ↦ ⟨own, inner⟩, fun ⟨own, inner⟩ ↦ ⟨own, inner⟩⟩

theorem Every.imp {p q : Json → Prop} (hpq : ∀ v, p v → q v) {v : Json} (h : Every p v) :
    Every q v := by
  induction h with
  | intro own _ ih => exact ⟨hpq _ own, ih⟩

theorem every_arr_iff {p : Json → Prop} {vs : List Json} :
    Every p (.arr vs) ↔ p (.arr vs) ∧ ∀ v ∈ vs, Every p v :=
  every_iff

theorem every_obj_iff {p : Json → Prop} {ms : List (String × Json)} :
    Every p (.obj ms) ↔ p (.obj ms) ∧ ∀ m ∈ ms, Every p m.2 := by
  simp only [every_iff (v := .obj ms), parts, List.forall_mem_map]

/-- Every object has its keys in strictly increasing order. -/
def Canonical : Json → Prop :=
  Every fun v ↦ match v with
    | .obj ms => KeyMap.Sorted ms
    | _ => True

/-- Every number is an integer that fits a word. -/
def Integral : Json → Prop :=
  Every fun v ↦ match v with
    | .num n => n.IsWord
    | _ => True

@[simp]
theorem canonical_arr_iff {vs : List Json} : Canonical (.arr vs) ↔ ∀ v ∈ vs, Canonical v := by
  simp only [Canonical, every_arr_iff, true_and]

theorem canonical_obj_iff {ms : List (String × Json)} :
    Canonical (.obj ms) ↔ KeyMap.Sorted ms ∧ ∀ m ∈ ms, Canonical m.2 := by
  simp only [Canonical, every_obj_iff]

theorem Canonical.insert {ms : List (String × Json)} (h : Canonical (.obj ms)) {v : Json}
    (hv : v.Canonical) (key : String) : Canonical (.obj (KeyMap.insert key v ms)) := by
  obtain ⟨hs, hmembers⟩ := canonical_obj_iff.mp h
  refine canonical_obj_iff.mpr ⟨KeyMap.sorted_insert hs key v, fun m hm ↦ ?_⟩
  rcases KeyMap.mem_insert hm with rfl | hm
  · exact hv
  · exact hmembers m hm

theorem Canonical.set {vs : List Json} (h : Canonical (.arr vs)) {v : Json} (hv : v.Canonical)
    (i : Nat) : Canonical (.arr (vs.set i v)) := by
  refine canonical_arr_iff.mpr fun w hw ↦ ?_
  rcases List.mem_or_eq_of_mem_set hw with hw | rfl
  · exact canonical_arr_iff.mp h w hw
  · exact hv

theorem canonical_getD_get? {ms : List (String × Json)} (h : Canonical (.obj ms)) (key : String) :
    ((KeyMap.get? ms key).getD (.obj [])).Canonical := by
  cases hv : KeyMap.get? ms key with
  | some v => exact (canonical_obj_iff.mp h).2 (key, v) (KeyMap.mem_of_get?_eq_some hv)
  | none => exact canonical_obj_iff.mpr ⟨List.Pairwise.nil, List.forall_mem_nil _⟩

@[simp]
theorem canonical_str (s : String) : Canonical (.str s) := ⟨trivial, by simp [parts]⟩

@[simp]
theorem canonical_bool (b : Bool) : Canonical (.bool b) := ⟨trivial, by simp [parts]⟩

@[simp]
theorem canonical_num (n : Number) : Canonical (.num n) := ⟨trivial, by simp [parts]⟩

@[simp]
theorem integral_arr_iff {vs : List Json} : Integral (.arr vs) ↔ ∀ v ∈ vs, Integral v := by
  simp only [Integral, every_arr_iff, true_and]

theorem integral_obj_iff {ms : List (String × Json)} :
    Integral (.obj ms) ↔ ∀ m ∈ ms, Integral m.2 := by
  simp only [Integral, every_obj_iff, true_and]

@[simp]
theorem integral_num_iff {n : Number} : Integral (.num n) ↔ n.IsWord := by
  simp [Integral, every_iff (v := .num n), parts]

@[simp]
theorem integral_null : Integral .null := ⟨trivial, by simp [parts]⟩

@[simp]
theorem integral_str (s : String) : Integral (.str s) := ⟨trivial, by simp [parts]⟩

@[simp]
theorem integral_bool (b : Bool) : Integral (.bool b) := ⟨trivial, by simp [parts]⟩

theorem canonicalize_eq_self {v : Json} (h : v.Canonical) : v.canonicalize = v := by
  induction v with
  | null | bool | num | str => rfl
  | arr vs ih =>
    simp only [canonicalize, canonicalizeItems_eq_map, arr.injEq]
    refine (List.map_congr_left fun v hv ↦ ?_).trans (List.map_id vs)
    rw [ih v hv (canonical_arr_iff.mp h v hv), id]
  | obj ms ih =>
    obtain ⟨hs, hc⟩ := canonical_obj_iff.mp h
    have hmap : ms.map (fun m ↦ (m.1, canonicalize m.2)) = ms := by
      refine (List.map_congr_left fun m hm ↦ ?_).trans (List.map_id ms)
      rw [ih m hm (hc m hm), id]
    simp only [canonicalize, canonicalizeMembers_eq_map, hmap, KeyMap.ofList_of_sorted hs]

theorem canonical_canonicalize (v : Json) : v.canonicalize.Canonical := by
  induction v with
  | null => exact ⟨trivial, by simp [canonicalize, parts]⟩
  | bool b => exact canonical_bool b
  | num n => exact canonical_num n
  | str s => exact canonical_str s
  | arr vs ih =>
    simp only [canonicalize, canonicalizeItems_eq_map]
    refine canonical_arr_iff.mpr fun w hw ↦ ?_
    obtain ⟨v, hv, rfl⟩ := List.mem_map.mp hw
    exact ih v hv
  | obj ms ih =>
    simp only [canonicalize, canonicalizeMembers_eq_map]
    refine canonical_obj_iff.mpr ⟨KeyMap.sorted_ofList _, fun n hn ↦ ?_⟩
    obtain ⟨m, hm, rfl⟩ := List.mem_map.mp (KeyMap.mem_of_mem_ofList hn)
    exact ih m hm

mutual

def depth : Json → Nat
  | .arr vs => itemsDepth vs + 1
  | .obj ms => membersDepth ms + 1
  | .null => 0
  | .bool _ => 0
  | .num _ => 0
  | .str _ => 0
termination_by structural v => v

def itemsDepth : List Json → Nat
  | [] => 0
  | v :: vs => max (depth v) (itemsDepth vs)
termination_by structural vs => vs

def membersDepth : List (String × Json) → Nat
  | [] => 0
  | (_, v) :: ms => max (depth v) (membersDepth ms)
termination_by structural ms => ms

end

theorem itemsDepth_le {vs : List Json} {n : Nat} (h : ∀ v ∈ vs, v.depth ≤ n) :
    itemsDepth vs ≤ n := by
  induction vs with
  | nil => exact Nat.zero_le n
  | cons v vs ih =>
    simp only [itemsDepth, Nat.max_le]
    exact ⟨h v List.mem_cons_self, ih fun w hw ↦ h w (List.mem_cons_of_mem _ hw)⟩

theorem membersDepth_le {ms : List (String × Json)} {n : Nat} (h : ∀ m ∈ ms, m.2.depth ≤ n) :
    membersDepth ms ≤ n := by
  induction ms with
  | nil => exact Nat.zero_le n
  | cons m ms ih =>
    simp only [membersDepth, Nat.max_le]
    exact ⟨h m List.mem_cons_self, ih fun w hw ↦ h w (List.mem_cons_of_mem _ hw)⟩

theorem depth_arr_le {vs : List Json} {n : Nat} (h : ∀ v ∈ vs, v.depth ≤ n) :
    depth (.arr vs) ≤ n + 1 :=
  Nat.succ_le_succ (itemsDepth_le h)

theorem depth_obj_le {ms : List (String × Json)} {n : Nat} (h : ∀ m ∈ ms, m.2.depth ≤ n) :
    depth (.obj ms) ≤ n + 1 :=
  Nat.succ_le_succ (membersDepth_le h)

theorem depth_le_itemsDepth {vs : List Json} {v : Json} (h : v ∈ vs) : v.depth ≤ itemsDepth vs := by
  induction vs with
  | nil => simp at h
  | cons w vs ih =>
    rcases List.mem_cons.mp h with rfl | h
    · exact Nat.le_max_left _ _
    · exact Nat.le_trans (ih h) (Nat.le_max_right _ _)

theorem depth_le_membersDepth {ms : List (String × Json)} {m : String × Json} (h : m ∈ ms) :
    m.2.depth ≤ membersDepth ms := by
  induction ms with
  | nil => simp at h
  | cons n ms ih =>
    rcases List.mem_cons.mp h with rfl | h
    · exact Nat.le_max_left _ _
    · exact Nat.le_trans (ih h) (Nat.le_max_right _ _)

theorem depth_canonicalize_le (v : Json) : v.canonicalize.depth ≤ v.depth := by
  induction v with
  | null | bool | num | str => exact Nat.le_refl _
  | arr vs ih =>
    simp only [canonicalize, canonicalizeItems_eq_map]
    refine depth_arr_le fun w hw ↦ ?_
    obtain ⟨v, hv, rfl⟩ := List.mem_map.mp hw
    exact Nat.le_trans (ih v hv) (depth_le_itemsDepth hv)
  | obj ms ih =>
    simp only [canonicalize, canonicalizeMembers_eq_map]
    refine depth_obj_le fun n hn ↦ ?_
    obtain ⟨m, hm, rfl⟩ := List.mem_map.mp (KeyMap.mem_of_mem_ofList hn)
    exact Nat.le_trans (ih m hm) (depth_le_membersDepth hm)

mutual

def mapNumbers (f : Number → Number) : Json → Json
  | .num n => .num (f n)
  | .arr vs => .arr (mapItems f vs)
  | .obj ms => .obj (mapMembers f ms)
  | .null => .null
  | .bool b => .bool b
  | .str s => .str s
termination_by structural v => v

def mapItems (f : Number → Number) : List Json → List Json
  | [] => []
  | v :: vs => mapNumbers f v :: mapItems f vs
termination_by structural vs => vs

def mapMembers (f : Number → Number) : List (String × Json) → List (String × Json)
  | [] => []
  | (k, v) :: ms => (k, mapNumbers f v) :: mapMembers f ms
termination_by structural ms => ms

end

variable {f : Number → Number}

@[simp] theorem mapNumbers_arr (vs : List Json) :
    (arr vs).mapNumbers f = .arr (vs.map (mapNumbers f)) := by
  have hitems : mapItems f vs = vs.map (mapNumbers f) := by
    induction vs with
    | nil => rfl
    | cons v vs ih => rw [mapItems, ih, List.map_cons]
  rw [mapNumbers, hitems]

@[simp] theorem mapNumbers_obj (ms : List (String × Json)) :
    (obj ms).mapNumbers f = .obj (ms.map fun m ↦ (m.1, m.2.mapNumbers f)) := by
  have hmembers : mapMembers f ms = ms.map fun m ↦ (m.1, m.2.mapNumbers f) := by
    induction ms with
    | nil => rfl
    | cons m ms ih => rw [mapMembers, ih, List.map_cons]
  rw [mapNumbers, hmembers]

theorem mapNumbers_eq_self {v : Json}
    (h : Every (fun v ↦ match v with | .num n => f n = n | _ => True) v) :
    v.mapNumbers f = v := by
  induction v with
  | null | bool | str => rfl
  | num n => rw [mapNumbers, (every_iff.mp h).1]
  | arr vs ih =>
    rw [mapNumbers_arr]
    refine congrArg arr ((List.map_congr_left fun v hv ↦ ?_).trans (List.map_id vs))
    exact ih v hv ((every_arr_iff.mp h).2 v hv)
  | obj ms ih =>
    rw [mapNumbers_obj]
    refine congrArg obj ((List.map_congr_left fun m hm ↦ ?_).trans (List.map_id ms))
    rw [ih m hm ((every_obj_iff.mp h).2 m hm), id]

theorem mapNumbers_id (v : Json) : v.mapNumbers id = v := by
  refine mapNumbers_eq_self ?_
  induction v with
  | num n => exact ⟨rfl, by simp [parts]⟩
  | null | bool | str => exact ⟨trivial, by simp [parts]⟩
  | arr vs ih => exact every_arr_iff.mpr ⟨trivial, ih⟩
  | obj ms ih => exact every_obj_iff.mpr ⟨trivial, ih⟩

theorem depth_mapNumbers (v : Json) : (v.mapNumbers f).depth = v.depth := by
  induction v with
  | null | bool | num | str => rfl
  | arr vs ih =>
    have hitems : itemsDepth (vs.map (mapNumbers f)) = itemsDepth vs := by
      induction vs with
      | nil => rfl
      | cons v vs ihvs =>
        rw [List.map_cons, itemsDepth, itemsDepth, ih v List.mem_cons_self,
          ihvs fun w hw ↦ ih w (List.mem_cons_of_mem _ hw)]
    rw [mapNumbers_arr, depth, depth, hitems]
  | obj ms ih =>
    have hmembers : membersDepth (ms.map fun m ↦ (m.1, m.2.mapNumbers f)) = membersDepth ms := by
      induction ms with
      | nil => rfl
      | cons m ms ihms =>
        rw [List.map_cons, membersDepth, membersDepth, ih m List.mem_cons_self,
          ihms fun n hn ↦ ih n (List.mem_cons_of_mem _ hn)]
    rw [mapNumbers_obj, depth, depth, hmembers]

theorem canonical_mapNumbers {v : Json} (h : v.Canonical) : (v.mapNumbers f).Canonical := by
  induction v with
  | null => exact h
  | bool b => exact h
  | num n => exact canonical_num _
  | str s => exact h
  | arr vs ih =>
    rw [mapNumbers_arr]
    refine canonical_arr_iff.mpr (List.forall_mem_map.mpr fun v hv ↦ ?_)
    exact ih v hv (canonical_arr_iff.mp h v hv)
  | obj ms ih =>
    obtain ⟨hs, hc⟩ := canonical_obj_iff.mp h
    rw [mapNumbers_obj]
    refine canonical_obj_iff.mpr ⟨hs.mapValues _, List.forall_mem_map.mpr fun m hm ↦ ?_⟩
    exact ih m hm (hc m hm)

/-- A value in canonical form whose numbers are words and that is at most `n` levels deep. -/
structure Plain (n : Nat) (v : Json) : Prop where
  canonical : v.Canonical
  integral : v.Integral
  depth_le : v.depth ≤ n

theorem Plain.mono {n m : Nat} {v : Json} (h : v.Plain n) (hnm : n ≤ m) : v.Plain m :=
  ⟨h.canonical, h.integral, Nat.le_trans h.depth_le hnm⟩

theorem plain_str (n : Nat) (s : String) : Plain n (.str s) :=
  ⟨canonical_str s, integral_str s, Nat.zero_le n⟩

theorem plain_bool (n : Nat) (b : Bool) : Plain n (.bool b) :=
  ⟨canonical_bool b, integral_bool b, Nat.zero_le n⟩

theorem plain_arr {n : Nat} {vs : List Json} (h : ∀ v ∈ vs, v.Plain n) : Plain (n + 1) (.arr vs) :=
  ⟨canonical_arr_iff.mpr fun v hv ↦ (h v hv).canonical,
    integral_arr_iff.mpr fun v hv ↦ (h v hv).integral, depth_arr_le fun v hv ↦ (h v hv).depth_le⟩

theorem plain_obj {n : Nat} {ms : List (String × Json)} (hs : KeyMap.Sorted ms)
    (h : ∀ m ∈ ms, m.2.Plain n) : Plain (n + 1) (.obj ms) :=
  ⟨canonical_obj_iff.mpr ⟨hs, fun m hm ↦ (h m hm).canonical⟩,
    integral_obj_iff.mpr fun m hm ↦ (h m hm).integral, depth_obj_le fun m hm ↦ (h m hm).depth_le⟩

theorem plain_object {n : Nat} {ms : List (String × Json)} (h : ∀ m ∈ ms, m.2.Plain n) :
    Plain (n + 1) (.object ms) :=
  plain_obj (KeyMap.sorted_ofList ms) fun m hm ↦ h m (KeyMap.mem_of_mem_ofList hm)

theorem plain_ofStrings (ss : List String) : Plain 1 (.ofStrings ss) :=
  plain_arr fun v hv ↦ by
    obtain ⟨s, -, rfl⟩ := List.mem_map.mp hv
    exact plain_str 0 s

theorem plain_ofInts {ns : List Int} (h : ∀ n ∈ ns, (Number.int n).IsWord) :
    Plain 1 (.arr (ns.map .ofInt)) :=
  plain_arr fun v hv ↦ by
    obtain ⟨n, hn, rfl⟩ := List.mem_map.mp hv
    exact ⟨canonical_num _, integral_num_iff.mpr (h n hn), Nat.zero_le 0⟩

end Json

end ConfidentialPolicy

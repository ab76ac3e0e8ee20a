import ConfidentialPolicy.Proofs.Json.Difference.Parts
import ConfidentialPolicy.Proofs.Json.Sameness

namespace ConfidentialPolicy.Json

/-- What a change tells of the values before and after it. -/
inductive Change.Holds (v w : Json) : Change → Prop
  | valuesChanged {path : List Step} {x y : Json} (old : v.at? path = some x)
    (new : w.at? path = some y) (ne : x ≠ y) (kind_eq : x.kind = y.kind)
    (leaf : ¬ x.kind.HasParts) : Holds v w ⟨.valuesChanged, path, some x, some y⟩
  | typeChanged {path : List Step} {x y : Json} (old : v.at? path = some x)
    (new : w.at? path = some y) (kind_ne : x.kind ≠ y.kind) :
    Holds v w ⟨.typeChanged, path, some x, some y⟩
  | itemAdded {path : List Step} {xs ys : List Json} {i : Nat} {y : Json}
    (old : v.at? path = some (.arr xs)) (new : w.at? path = some (.arr ys))
    (absent : xs[i]? = none) (present : ys[i]? = some y) :
    Holds v w ⟨.itemAdded, path ++ [.index i], none, some y⟩
  | itemRemoved {path : List Step} {xs ys : List Json} {i : Nat} {x : Json}
    (old : v.at? path = some (.arr xs)) (new : w.at? path = some (.arr ys))
    (present : xs[i]? = some x) (absent : ys[i]? = none) :
    Holds v w ⟨.itemRemoved, path ++ [.index i], some x, none⟩
  | keyAdded {path : List Step} {ms ns : List (String × Json)} {k : String} {y : Json}
    (old : v.at? path = some (.obj ms)) (new : w.at? path = some (.obj ns))
    (absent : KeyMap.get? ms k = none) (present : KeyMap.get? ns k = some y) :
    Holds v w ⟨.keyAdded, path ++ [.key k], none, some y⟩
  | keyRemoved {path : List Step} {ms ns : List (String × Json)} {k : String} {x : Json}
    (old : v.at? path = some (.obj ms)) (new : w.at? path = some (.obj ns))
    (present : KeyMap.get? ms k = some x) (absent : KeyMap.get? ns k = none) :
    Holds v w ⟨.keyRemoved, path ++ [.key k], some x, none⟩

/-- Neither change is at a place within that of the other. -/
def Change.Apart (c d : Change) : Prop := ¬ c.path <+: d.path ∧ ¬ d.path <+: c.path

variable {v w : Json} {c : Change}

namespace Change.Holds

theorem at?_old (h : c.Holds v w) : v.at? c.path = c.old := by
  cases h with
  | valuesChanged old | typeChanged old => exact old
  | itemAdded old _ absent | keyAdded old _ absent => exact (at?_concat old _).trans absent
  | itemRemoved old _ present | keyRemoved old _ present => exact (at?_concat old _).trans present

theorem at?_new (h : c.Holds v w) : w.at? c.path = c.new := by
  cases h with
  | valuesChanged _ new | typeChanged _ new => exact new
  | itemAdded _ new _ present | keyAdded _ new _ present => exact (at?_concat new _).trans present
  | itemRemoved _ new _ absent | keyRemoved _ new _ absent => exact (at?_concat new _).trans absent

/-- What a change tells of the parts of two values it tells of the values, one step further out. -/
theorem under {s : Step} {x y : Json} (h : c.Holds x y) (hx : v.part? s = some x)
    (hy : w.part? s = some y) : (c.under s).Holds v w := by
  have hv (path : List Step) : v.at? (s :: path) = x.at? path := at?_cons_of_part? hx path
  have hw (path : List Step) : w.at? (s :: path) = y.at? path := at?_cons_of_part? hy path
  -- A step in front of `path ++ [t]` is one in front of `path`, but only by computation.
  cases h with
  | valuesChanged old new ne kind_eq leaf =>
    exact .valuesChanged ((hv _).trans old) ((hw _).trans new) ne kind_eq leaf
  | typeChanged old new kind_ne =>
    exact .typeChanged ((hv _).trans old) ((hw _).trans new) kind_ne
  | itemAdded old new absent present =>
    exact (itemAdded ((hv _).trans old) ((hw _).trans new) absent present :)
  | itemRemoved old new present absent =>
    exact (itemRemoved ((hv _).trans old) ((hw _).trans new) present absent :)
  | keyAdded old new absent present =>
    exact (keyAdded ((hv _).trans old) ((hw _).trans new) absent present :)
  | keyRemoved old new present absent =>
    exact (keyRemoved ((hv _).trans old) ((hw _).trans new) present absent :)

end Change.Holds

theorem Alike.holds_added {s : Step} {y : Json} (h : Alike v w) (hx : v.part? s = none)
    (hy : w.part? s = some y) : Change.Holds v w ⟨s.added, [s], none, some y⟩ := by
  rcases h.cases with ⟨vs, ws, rfl, rfl⟩ | ⟨ms, ns, rfl, rfl⟩
  · cases s with
    | index i =>
      exact (Change.Holds.itemAdded (at?_nil (.arr vs)) (at?_nil (.arr ws)) hx hy :)
    | key => cases hy
  · cases s with
    | index => cases hy
    | key k =>
      exact (Change.Holds.keyAdded (at?_nil (.obj ms)) (at?_nil (.obj ns)) hx hy :)

theorem Alike.holds_removed {s : Step} {x : Json} (h : Alike v w) (hx : v.part? s = some x)
    (hy : w.part? s = none) : Change.Holds v w ⟨s.removed, [s], some x, none⟩ := by
  rcases h.cases with ⟨vs, ws, rfl, rfl⟩ | ⟨ms, ns, rfl, rfl⟩
  · cases s with
    | index i =>
      exact (Change.Holds.itemRemoved (at?_nil (.arr vs)) (at?_nil (.arr ws)) hx hy :)
    | key => cases hx
  · cases s with
    | index => cases hx
    | key k =>
      exact (Change.Holds.keyRemoved (at?_nil (.obj ms)) (at?_nil (.obj ns)) hx hy :)

theorem holds_of_mem_partChanges {s : Step} {x y : Option Json} (h : Alike v w)
    (hx : v.part? s = x) (hy : w.part? s = y)
    (inner : ∀ v' ∈ x, ∀ w' ∈ y, ∀ d ∈ difference v' w', d.Holds v' w')
    (hc : c ∈ partChanges s x y) : c.Holds v w := by
  cases x with
  | none =>
    cases y with
    | none => cases hc
    | some w' =>
      rw [List.mem_singleton.mp hc]
      exact h.holds_added hx hy
  | some v' =>
    cases y with
    | none =>
      rw [List.mem_singleton.mp hc]
      exact h.holds_removed hx hy
    | some w' =>
      obtain ⟨d, hd, rfl⟩ := List.mem_map.mp hc
      exact (inner v' rfl w' rfl d hd).under hx hy

theorem sameLeaf_self (v : Json) : sameLeaf v v = true := by
  cases v with
  | num n => exact Number.same_iff.mpr rfl
  | null | bool | str | arr | obj => simp [sameLeaf]

theorem holds_of_mem_leafDifference (h : ¬ Alike v w) (hc : c ∈ leafDifference v w) :
    c.Holds v w := by
  rw [leafDifference] at hc
  split at hc
  · cases hc
  · next hsame =>
    rw [List.mem_singleton.mp hc]
    by_cases hkind : v.kind = w.kind
    · rw [if_pos hkind]
      have hne : v ≠ w := fun he ↦ hsame (he ▸ sameLeaf_self v)
      exact .valuesChanged (at?_nil v) (at?_nil w) hne hkind fun hparts ↦ h ⟨hkind, hparts⟩
    · rw [if_neg hkind]
      exact .typeChanged (at?_nil v) (at?_nil w) hkind

theorem holds_of_mem_difference (hv : v.Canonical) (hw : w.Canonical)
    (hc : c ∈ difference v w) : c.Holds v w := by
  induction v using induct_parts generalizing w c with
  | step v ih =>
    by_cases h : Alike v w
    · obtain ⟨s, hs⟩ := (mem_difference_of_alike h hv hw).mp hc
      refine holds_of_mem_partChanges h rfl rfl (fun x hx y hy d hd ↦ ?_) hs
      exact ih s x hx (hv.part hx) (hw.part hy) hd
    · exact holds_of_mem_leafDifference h (difference_of_not_alike h ▸ hc)

theorem apart_under {s : Step} {d : Change} (h : c.Apart d) : (c.under s).Apart (d.under s) := by
  simpa only [Change.Apart, Change.under, List.cons_prefix_cons, true_and] using h

theorem exists_path_of_mem_partChanges {s : Step} {x y : Option Json}
    (hc : c ∈ partChanges s x y) : ∃ path, c.path = s :: path := by
  cases x with
  | none =>
    cases y with
    | none => cases hc
    | some y => exact ⟨[], congrArg Change.path (List.mem_singleton.mp hc)⟩
  | some x =>
    cases y with
    | none => exact ⟨[], congrArg Change.path (List.mem_singleton.mp hc)⟩
    | some y =>
      obtain ⟨d, -, rfl⟩ := List.mem_map.mp hc
      exact ⟨d.path, rfl⟩

theorem apart_of_ne {s t : Step} {path path' : List Step} {d : Change} (h : s ≠ t)
    (hc : c.path = s :: path) (hd : d.path = t :: path') : c.Apart d := by
  rw [Change.Apart, hc, hd, List.cons_prefix_cons, List.cons_prefix_cons]
  exact ⟨fun hp ↦ h hp.1, fun hp ↦ h hp.1.symm⟩

theorem pairwise_apart_partChanges {s : Step} {x y : Option Json}
    (h : ∀ v ∈ x, ∀ w ∈ y, (difference v w).Pairwise Change.Apart) :
    (partChanges s x y).Pairwise Change.Apart := by
  cases x with
  | none =>
    cases y with
    | none => exact .nil
    | some w => exact List.pairwise_singleton _ _
  | some v =>
    cases y with
    | none => exact List.pairwise_singleton _ _
    | some w => exact List.pairwise_map.mpr ((h v rfl w rfl).imp apart_under)

theorem pairwise_apart_difference (hv : v.Canonical) (hw : w.Canonical) :
    (difference v w).Pairwise Change.Apart := by
  induction v using induct_parts generalizing w with
  | step v ih =>
    by_cases h : Alike v w
    · rw [difference_of_alike h hv hw, List.pairwise_flatMap]
      constructor
      · intro s _
        refine pairwise_apart_partChanges fun x hx y hy ↦ ?_
        exact ih s x hx (hv.part hx) (hw.part hy)
      -- Changes of different parts are apart by the first steps of their paths.
      · refine (nodup_steps hv hw).imp fun hne c hc d hd ↦ ?_
        obtain ⟨path, hpath⟩ := exists_path_of_mem_partChanges hc
        obtain ⟨path', hpath'⟩ := exists_path_of_mem_partChanges hd
        exact apart_of_ne hne hpath hpath'
    · rw [difference_of_not_alike h, leafDifference]
      split
      · exact .nil
      · exact List.pairwise_singleton _ _

/-- Each reported change is so, its path leads to just what it reports, and no path of one leads
through that of another. -/
theorem difference_truthful (hv : v.Canonical) (hw : w.Canonical) :
    (∀ c ∈ difference v w, v.at? c.path = c.old ∧ w.at? c.path = c.new ∧ c.Holds v w) ∧
      (difference v w).Pairwise Change.Apart := by
  refine ⟨fun c hc ↦ ?_, pairwise_apart_difference hv hw⟩
  have h := holds_of_mem_difference hv hw hc
  exact ⟨h.at?_old, h.at?_new, h⟩

theorem difference_truthful_laterRecord :
    difference earlierRecord laterRecord = [
      ⟨.itemRemoved, [.key "command", .index 1], some (.str "--debug"), none⟩,
      ⟨.valuesChanged, [.key "env", .key "HOME"], some (.str "/root"), some (.str "/app")⟩,
      ⟨.keyRemoved, [.key "env", .key "PATH"], some .null, none⟩,
      ⟨.keyAdded, [.key "env", .key "TERM"], none, some (.bool true)⟩,
      ⟨.typeChanged, [.key "level"], some (.num (.int 2)), some (.str "2")⟩,
      ⟨.itemAdded, [.key "mounts", .index 0], none, some (.obj [("source", .str "/data")])⟩] ∧
    (∀ c ∈ difference earlierRecord laterRecord,
      earlierRecord.at? c.path = c.old ∧ laterRecord.at? c.path = c.new ∧
        c.Holds earlierRecord laterRecord) ∧
    earlierRecord.at? [.key "env", .key "TERM"] = none ∧
    laterRecord.at? [.key "env", .key "TERM"] = some (.bool true) ∧
    (difference earlierRecord laterRecord).Pairwise Change.Apart := by
  obtain ⟨htrue, hapart⟩ := difference_truthful canonical_earlierRecord canonical_laterRecord
  have hadded := htrue ⟨.keyAdded, [.key "env", .key "TERM"], none, some (.bool true)⟩
    (by decide +kernel)
  exact ⟨by decide +kernel, htrue, hadded.1, hadded.2.1, hapart⟩

end ConfidentialPolicy.Json

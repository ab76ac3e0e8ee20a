import ConfidentialPolicy.Proofs.Json.Path
import Mathlib.Data.List.Nodup
import Mathlib.Order.MinMax

namespace ConfidentialPolicy.Json

def Step.added : Step → ChangeKind
  | .key _ => .keyAdded
  | .index _ => .itemAdded

def Step.removed : Step → ChangeKind
  | .key _ => .keyRemoved
  | .index _ => .itemRemoved

def partChanges (s : Step) : Option Json → Option Json → List Change
  | some x, some y => (difference x y).map (·.under s)
  | some x, none => [⟨s.removed, [s], some x, none⟩]
  | none, some y => [⟨s.added, [s], none, some y⟩]
  | none, none => []

/-- The steps into either of two lists or objects, in the order in which their parts are compared. -/
def steps : Json → Json → List Step
  | .arr vs, .arr ws => (List.range (max vs.length ws.length)).map .index
  | .obj ms, .obj ns =>
    (KeyMap.keys ms ++ (KeyMap.keys ns).filter fun k ↦ (KeyMap.get? ms k).isNone).map .key
  | _, _ => []

theorem flatMap_range_succ {α : Type} (n : Nat) (f : Nat → List α) :
    (List.range (n + 1)).flatMap f = f 0 ++ (List.range n).flatMap fun i ↦ f (i + 1) := by
  rw [List.range_succ_eq_map, List.flatMap_cons, List.flatMap_map]

theorem addedItems_eq (start : Nat) (ws : List Json) :
    addedItems start ws =
      (List.range ws.length).flatMap fun i ↦ partChanges (.index (start + i)) none ws[i]? := by
  induction ws generalizing start with
  | nil => rfl
  | cons w ws ih =>
    rw [addedItems, ih, List.length_cons, flatMap_range_succ]
    simp only [List.getElem?_cons_zero, List.getElem?_cons_succ, Nat.add_right_comm, Nat.add_assoc]
    rfl

theorem itemDifference_eq (start : Nat) (vs ws : List Json) :
    itemDifference start vs ws =
      (List.range (max vs.length ws.length)).flatMap fun i ↦
        partChanges (.index (start + i)) vs[i]? ws[i]? := by
  induction vs generalizing start ws with
  | nil =>
    rw [itemDifference, addedItems_eq, List.length_nil, Nat.zero_max]
    rfl
  | cons v vs ih =>
    cases ws with
    | nil =>
      rw [itemDifference, ih, List.length_cons, List.length_nil, Nat.max_zero, Nat.max_zero,
        flatMap_range_succ]
      simp only [List.getElem?_cons_succ, Nat.add_right_comm, Nat.add_assoc]
      rfl
    | cons w ws =>
      rw [itemDifference, ih, List.length_cons, List.length_cons, Nat.add_max_add_right,
        flatMap_range_succ]
      simp only [List.getElem?_cons_succ, Nat.add_right_comm, Nat.add_assoc]
      rfl

/-- Members that are looked up in a map they belong to. -/
theorem memberDifference_eq {ms rest ns : List (String × Json)}
    (h : ∀ m ∈ rest, KeyMap.get? ms m.1 = some m.2) :
    memberDifference rest ns =
      (KeyMap.keys rest).flatMap fun k ↦
        partChanges (.key k) (KeyMap.get? ms k) (KeyMap.get? ns k) := by
  induction rest with
  | nil => rfl
  | cons m rest ih =>
    obtain ⟨k, v⟩ := m
    have hrest := ih fun m hm ↦ h m (List.mem_cons_of_mem _ hm)
    have hk : KeyMap.get? ms k = some v := h (k, v) List.mem_cons_self
    rw [memberDifference, hrest, KeyMap.keys_cons, List.flatMap_cons, hk]
    cases KeyMap.get? ns k <;> rfl

theorem addedMembers_eq {ms ns : List (String × Json)} (hns : KeyMap.Sorted ns) :
    addedMembers ms ns =
      ((KeyMap.keys ns).filter fun k ↦ (KeyMap.get? ms k).isNone).flatMap fun k ↦
        partChanges (.key k) (KeyMap.get? ms k) (KeyMap.get? ns k) := by
  rw [KeyMap.keys, List.filter_map, List.flatMap_map, addedMembers, List.map_eq_flatMap]
  refine List.flatMap_congr fun n hn ↦ ?_
  obtain ⟨hmem, hnew⟩ := List.mem_filter.mp hn
  rw [Option.isNone_iff_eq_none.mp hnew, KeyMap.get?_of_mem hns hmem]
  rfl

theorem difference_of_alike {v w : Json} (h : Alike v w) (hv : v.Canonical) (hw : w.Canonical) :
    difference v w = (steps v w).flatMap fun s ↦ partChanges s (v.part? s) (w.part? s) := by
  rcases h.cases with ⟨vs, ws, rfl, rfl⟩ | ⟨ms, ns, rfl, rfl⟩
  · rw [difference, itemDifference_eq, steps, List.flatMap_map]
    simp only [Nat.zero_add]
    rfl
  · obtain ⟨hms, -⟩ := canonical_obj_iff.mp hv
    obtain ⟨hns, -⟩ := canonical_obj_iff.mp hw
    rw [difference, memberDifference_eq fun m hm ↦ KeyMap.get?_of_mem hms hm, addedMembers_eq hns,
      steps, ← List.flatMap_append, List.flatMap_map]
    rfl

theorem difference_of_not_alike {v w : Json} (h : ¬ Alike v w) :
    difference v w = leafDifference v w := by
  cases v with
  | arr vs =>
    cases w with
    | arr ws => exact absurd (alike_arr vs ws) h
    | null | bool | num | str | obj => rfl
  | obj ms =>
    cases w with
    | obj ns => exact absurd (alike_obj ms ns) h
    | null | bool | num | str | arr => rfl
  | null | bool | num | str => rfl

theorem mem_steps_iff {v w : Json} (h : Alike v w) {s : Step} :
    s ∈ steps v w ↔ (v.part? s).isSome = true ∨ (w.part? s).isSome = true := by
  rcases h.cases with ⟨vs, ws, rfl, rfl⟩ | ⟨ms, ns, rfl, rfl⟩
  · cases s with
    | index i => simp [steps, part?]
    | key k => simp [steps, part?]
  · cases s with
    | index i => simp [steps, part?]
    | key k =>
      have hnew : (KeyMap.get? ms k).isNone = true ↔ ¬ (KeyMap.get? ms k).isSome = true := by
        simp
      simp only [steps, part?, List.mem_map, Step.key.injEq, exists_eq_right, List.mem_append,
        List.mem_filter, KeyMap.mem_keys_iff, hnew]
      tauto

theorem nodup_steps {v w : Json} (hv : v.Canonical) (hw : w.Canonical) : (steps v w).Nodup := by
  unfold steps
  split
  · exact List.nodup_range.map fun _ _ h ↦ Step.index.inj h
  · next ms ns =>
    have hms := (canonical_obj_iff.mp hv).1.nodup_keys
    have hns := (canonical_obj_iff.mp hw).1.nodup_keys
    refine List.Nodup.map (fun _ _ h ↦ Step.key.inj h) ?_
    refine List.Nodup.append hms (hns.filter _) fun k hk hnew ↦ ?_
    have hsome := KeyMap.mem_keys_iff.mp hk
    rw [Option.isNone_iff_eq_none.mp (List.mem_filter.mp hnew).2] at hsome
    cases hsome
  · exact List.nodup_nil

/-- Whether two lists or two objects have a change is seen part by part. -/
theorem mem_difference_of_alike {v w : Json} (h : Alike v w) (hv : v.Canonical)
    (hw : w.Canonical) {c : Change} :
    c ∈ difference v w ↔ ∃ s, c ∈ partChanges s (v.part? s) (w.part? s) := by
  rw [difference_of_alike h hv hw, List.mem_flatMap]
  refine exists_congr fun s ↦ ⟨And.right, fun hc ↦ ⟨(mem_steps_iff h).mpr ?_, hc⟩⟩
  cases hx : v.part? s with
  | some x => exact .inl rfl
  | none =>
    cases hy : w.part? s with
    | some y => exact .inr rfl
    | none =>
      rw [hx, hy] at hc
      cases hc

theorem difference_eq_nil_iff_of_alike {v w : Json} (h : Alike v w) (hv : v.Canonical)
    (hw : w.Canonical) :
    difference v w = [] ↔ ∀ s, partChanges s (v.part? s) (w.part? s) = [] := by
  simp only [List.eq_nil_iff_forall_not_mem, mem_difference_of_alike h hv hw, not_exists]
  exact forall_comm

def earlierRecord : Json := .obj [
  ("command", .arr [.str "serve", .str "--debug"]),
  ("env", .obj [("HOME", .str "/root"), ("PATH", .null)]),
  ("id", .str "app"),
  ("level", .num (.int 2)),
  ("mounts", .arr [])]

def laterRecord : Json := .obj [
  ("command", .arr [.str "serve"]),
  ("env", .obj [("HOME", .str "/app"), ("TERM", .bool true)]),
  ("id", .str "app"),
  ("level", .str "2"),
  ("mounts", .arr [.obj [("source", .str "/data")]])]

theorem canonical_earlierRecord : earlierRecord.Canonical := by
  rw [← show earlierRecord.canonicalize = earlierRecord by decide +kernel]
  exact canonical_canonicalize earlierRecord

theorem canonical_laterRecord : laterRecord.Canonical := by
  rw [← show laterRecord.canonicalize = laterRecord by decide +kernel]
  exact canonical_canonicalize laterRecord

end ConfidentialPolicy.Json

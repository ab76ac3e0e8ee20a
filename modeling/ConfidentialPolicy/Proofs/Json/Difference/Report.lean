import ConfidentialPolicy.Proofs.Json.Difference
import ConfidentialPolicy.Proofs.Json.Difference.Truth
import ConfidentialPolicy.Proofs.KeyMap.Collect

namespace ConfidentialPolicy.Json

variable {v w x : Json} {cs : List Change}

/-- No object has a key that is the label of a side of a changed value. The labels that a report has
in their place may occur. -/
def Unlabelled : Json → Prop :=
  Every fun v ↦ match v with
    | .obj ms => ∀ k ∈ KeyMap.keys ms, k ≠ "old_value" ∧ k ≠ "new_value"
    | _ => True

theorem unlabelled_obj_iff {ms : List (String × Json)} :
    Unlabelled (.obj ms) ↔
      (∀ k ∈ KeyMap.keys ms, k ≠ "old_value" ∧ k ≠ "new_value") ∧ ∀ m ∈ ms, Unlabelled m.2 := by
  simp only [Unlabelled, every_obj_iff]

theorem unlabelled_arr_iff {vs : List Json} : Unlabelled (.arr vs) ↔ ∀ v ∈ vs, Unlabelled v := by
  simp only [Unlabelled, every_arr_iff, true_and]

theorem unlabelled_of_leaf (h : ¬ v.kind.HasParts) : Unlabelled v := by
  cases v with
  | arr vs => exact absurd (.inl rfl) h
  | obj ms => exact absurd (.inr rfl) h
  | null | bool | num | str => exact ⟨trivial, List.forall_mem_nil _⟩

theorem policyLabel_eq_self {key : String} (h : key ≠ "old_value" ∧ key ≠ "new_value") :
    policyLabel key = key := by
  rw [policyLabel, if_neg h.1, if_neg h.2]

theorem relabel_arr (vs : List Json) : relabel (.arr vs) = .arr (vs.map relabel) := by
  have hitems : relabelItems vs = vs.map relabel := by
    induction vs with
    | nil => rfl
    | cons v vs ih => rw [relabelItems, ih, List.map_cons]
  rw [relabel, hitems]

theorem relabel_obj (ms : List (String × Json)) :
    relabel (.obj ms) = .object (ms.map fun m ↦ (policyLabel m.1, m.2.relabel)) := by
  have hmembers : relabelMembers ms = ms.map fun m ↦ (policyLabel m.1, m.2.relabel) := by
    induction ms with
    | nil => rfl
    | cons m ms ih => rw [relabelMembers, ih, List.map_cons]
  rw [relabel, hmembers]

theorem relabel_obj_of_sorted {ms : List (String × Json)} (hs : KeyMap.Sorted ms)
    (hk : ∀ k ∈ KeyMap.keys ms, policyLabel k = k) :
    relabel (.obj ms) = .obj (ms.map fun m ↦ (m.1, m.2.relabel)) := by
  have hkeys : (ms.map fun m ↦ (policyLabel m.1, m.2.relabel)) =
      ms.map fun m ↦ (m.1, m.2.relabel) := by
    refine List.map_congr_left fun m hm ↦ ?_
    rw [hk m.1 (List.mem_map_of_mem hm)]
  rw [relabel_obj, hkeys, object, KeyMap.ofList_of_sorted (hs.mapValues relabel)]

theorem relabel_eq_self (hc : v.Canonical) (hu : v.Unlabelled) : v.relabel = v := by
  induction v with
  | null | bool | num | str => rfl
  | arr vs ih =>
    rw [relabel_arr]
    refine congrArg arr ((List.map_congr_left fun v hv ↦ ?_).trans (List.map_id vs))
    exact ih v hv (canonical_arr_iff.mp hc v hv) (unlabelled_arr_iff.mp hu v hv)
  | obj ms ih =>
    obtain ⟨hs, hcm⟩ := canonical_obj_iff.mp hc
    obtain ⟨hk, hum⟩ := unlabelled_obj_iff.mp hu
    rw [relabel_obj_of_sorted hs fun k hkm ↦ policyLabel_eq_self (hk k hkm)]
    refine congrArg obj ((List.map_congr_left fun m hm ↦ ?_).trans (List.map_id ms))
    rw [ih m hm (hcm m hm) (hum m hm), id]

theorem Unlabelled.key_of_at? {path : List Step} (h : v.Unlabelled) (hx : v.at? path = some x)
    {k : String} (hk : .key k ∈ path) : k ≠ "old_value" ∧ k ≠ "new_value" := by
  induction path generalizing v with
  | nil => cases hk
  | cons s path ih =>
    obtain ⟨y, hy, hx⟩ := Option.bind_eq_some_iff.mp hx
    rcases List.mem_cons.mp hk with rfl | hk
    · cases v with
      | obj ms =>
        refine (unlabelled_obj_iff.mp h).1 k (KeyMap.mem_keys_iff.mpr ?_)
        exact Option.isSome_of_eq_some hy
      | null | bool | num | str | arr => cases hy
    · exact ih (h.part hy) hx hk

/-- The entry of a change: both values where one came in the place of another, else the value that
came or went. -/
inductive Change.Shows : Change → Json → Prop
  | changed {kind : ChangeKind} {path : List Step} {x y : Json}
    (h : kind = .valuesChanged ∨ kind = .typeChanged) :
    Shows ⟨kind, path, some x, some y⟩ (.obj [("policy_value", x), ("tested_value", y)])
  | added {kind : ChangeKind} {path : List Step} {y : Json}
    (h : kind = .itemAdded ∨ kind = .keyAdded) : Shows ⟨kind, path, none, some y⟩ y
  | removed {kind : ChangeKind} {path : List Step} {x : Json}
    (h : kind = .itemRemoved ∨ kind = .keyRemoved) : Shows ⟨kind, path, some x, none⟩ x

theorem relabel_sides (x y : Json) :
    relabel (.object [("new_value", y), ("old_value", x)]) =
      .obj [("policy_value", x.relabel), ("tested_value", y.relabel)] := by
  have hsorted : KeyMap.Sorted [("new_value", y), ("old_value", x)] :=
    List.pairwise_pair.mpr (by decide : "new_value" < "old_value")
  have hgt : "policy_value" < "tested_value" := by decide
  rw [object, KeyMap.ofList_of_sorted hsorted, relabel_obj]
  simp only [object, List.map_cons, List.map_nil, KeyMap.ofList, List.foldl_cons, List.foldl_nil,
    KeyMap.insert, policyLabel, reduceIte, String.reduceEq, hgt]

/-- Renaming the labels of an entry leaves the values in it as they are. -/
theorem Change.Holds.shows {c : Change} (h : c.Holds v w) (hv : v.Canonical) (hw : w.Canonical)
    (huv : v.Unlabelled) (huw : w.Unlabelled) : c.Shows c.entry.relabel := by
  have hold : ∀ x, c.old = some x → x.relabel = x := by
    intro x hx
    have hat := h.at?_old.trans hx
    exact relabel_eq_self (Every.at? hv hat) (Every.at? huv hat)
  have hnew : ∀ y, c.new = some y → y.relabel = y := by
    intro y hy
    have hat := h.at?_new.trans hy
    exact relabel_eq_self (Every.at? hw hat) (Every.at? huw hat)
  cases h with
  | @valuesChanged path x y | @typeChanged path x y =>
    have hsides := relabel_sides x y
    rw [hold x rfl, hnew y rfl] at hsides
    rw [entry, Option.getD_some, Option.getD_some, hsides]
    exact .changed (by decide)
  | @itemAdded _ _ _ _ y | @keyAdded _ _ _ _ y =>
    rw [entry, Option.getD_some, hnew y rfl]
    exact .added (by decide)
  | @itemRemoved _ _ _ _ x | @keyRemoved _ _ _ _ x =>
    rw [entry, Option.getD_some, hold x rfl]
    exact .removed (by decide)

/-- The first key on the path of a change names its group, and without a key the group is `root`. -/
inductive InGroup : List Step → String → Prop
  | root : InGroup [] "root"
  | key (k : String) (path : List Step) : InGroup (.key k :: path) k
  | index (i : Nat) {path : List Step} {group : String} (h : InGroup path group) :
    InGroup (.index i :: path) group

inductive InCategory : ChangeKind → String → Prop
  | valuesChanged : InCategory .valuesChanged "values_changed"
  | typeChanged : InCategory .typeChanged "type_changes"
  | itemAdded : InCategory .itemAdded "values_added"
  | itemRemoved : InCategory .itemRemoved "values_removed"
  | keyAdded : InCategory .keyAdded "dictionary_item_added"
  | keyRemoved : InCategory .keyRemoved "dictionary_item_removed"

theorem inGroup_iff {c : Change} {group : String} : InGroup c.path group ↔ c.group = group := by
  obtain ⟨kind, path, old, new⟩ := c
  constructor
  · intro h
    change InGroup path group at h
    induction h with
    | root | key => rfl
    | index _ _ ih => exact ih
  · rintro rfl
    induction path with
    | nil => exact .root
    | cons s path ih =>
      cases s with
      | key k => exact .key k path
      | index i => exact .index i ih

theorem inCategory_iff {kind : ChangeKind} {category : String} :
    InCategory kind category ↔ kind.category = category := by
  constructor
  · intro h
    cases h <;> rfl
  · rintro rfl
    cases kind <;> constructor

instance (c : Change) (group : String) : Decidable (InGroup c.path group) :=
  decidable_of_iff _ inGroup_iff.symm

instance (kind : ChangeKind) (category : String) : Decidable (InCategory kind category) :=
  decidable_of_iff _ inCategory_iff.symm

theorem InGroup.key_mem_or {path : List Step} {group : String} (h : InGroup path group) :
    .key group ∈ path ∨ group = "root" := by
  induction h with
  | root => exact .inr rfl
  | key k path => exact .inl List.mem_cons_self
  | index i _ ih => exact ih.imp_left (List.mem_cons_of_mem _)

theorem Change.Holds.policyLabel_group {c : Change} (h : c.Holds v w) (huv : v.Unlabelled)
    (huw : w.Unlabelled) : policyLabel c.group = c.group := by
  have hgroup : InGroup c.path c.group := inGroup_iff.mpr rfl
  rcases hgroup.key_mem_or with hk | hroot
  · apply policyLabel_eq_self
    have hat : (∃ x, v.at? c.path = some x) ∨ ∃ y, w.at? c.path = some y := by
      rw [h.at?_old, h.at?_new]
      cases h with
      | @valuesChanged _ x | @typeChanged _ x | @itemRemoved _ _ _ _ x | @keyRemoved _ _ _ _ x =>
        exact .inl ⟨x, rfl⟩
      | @itemAdded _ _ _ _ y | @keyAdded _ _ _ _ y => exact .inr ⟨y, rfl⟩
    rcases hat with ⟨x, hx⟩ | ⟨y, hy⟩
    · exact huv.key_of_at? hx hk
    · exact huw.key_of_at? hy hk
  · rw [hroot]
    rfl

theorem policyLabel_category (kind : ChangeKind) : policyLabel kind.category = kind.category := by
  cases kind <;> rfl

/-- An object whose keys are certain names and that has under each of them what it should. -/
def IsTable (names : String → Prop) (holds : String → Json → Prop) (v : Json) : Prop :=
  ∃ ms, v = .obj ms ∧ KeyMap.Sorted ms ∧ (∀ k, k ∈ KeyMap.keys ms ↔ names k) ∧
    ∀ m ∈ ms, holds m.1 m.2

/-- A table of the groups that occur among changes, with their entries in order. -/
def ReportsGroups (cs : List Change) : Json → Prop :=
  IsTable (fun group ↦ ∃ c ∈ cs, InGroup c.path group) fun group v ↦ ∃ entries,
    v = .arr entries ∧
      List.Forall₂ Change.Shows (cs.filter fun c ↦ InGroup c.path group) entries

def Reports (cs : List Change) : Json → Prop :=
  IsTable (fun category ↦ ∃ c ∈ cs, InCategory c.kind category) fun category ↦
    ReportsGroups (cs.filter fun c ↦ InCategory c.kind category)

theorem reportsGroups_iff : ReportsGroups cs v ↔
    IsTable (fun group ↦ ∃ c ∈ cs, c.group = group) (fun group v ↦ ∃ entries,
      v = .arr entries ∧ List.Forall₂ Change.Shows (cs.filter (·.group = group)) entries) v := by
  simp only [ReportsGroups, inGroup_iff]

theorem reports_iff : Reports cs v ↔
    IsTable (fun category ↦ ∃ c ∈ cs, c.kind.category = category)
      (fun category ↦ ReportsGroups (cs.filter (·.kind.category = category))) v := by
  simp only [Reports, inCategory_iff]

section

variable {α γ : Type} {key : γ → String} {f : α → γ → α} {init : α} {ds : List γ} {F : α → Json}

theorem relabel_collect (h : ∀ c ∈ ds, policyLabel (key c) = key c) :
    relabel (.obj ((KeyMap.collect key f init ds).map fun p ↦ (p.1, F p.2))) =
      .obj ((KeyMap.collect key f init ds).map fun p ↦ (p.1, (F p.2).relabel)) := by
  rw [relabel_obj_of_sorted ((KeyMap.sorted_collect ds).mapValues F), List.map_map]
  · rfl
  · intro k hk
    rw [KeyMap.keys_mapValues] at hk
    obtain ⟨c, hc, rfl⟩ := KeyMap.mem_keys_collect.mp hk
    exact h c hc

theorem isTable_collect {holds : String → Json → Prop}
    (h : ∀ k, holds k (F ((ds.filter (key · = k)).foldl f init))) :
    IsTable (fun k ↦ ∃ c ∈ ds, key c = k) holds
      (.obj ((KeyMap.collect key f init ds).map fun p ↦ (p.1, F p.2))) := by
  refine ⟨_, rfl, (KeyMap.sorted_collect ds).mapValues F, fun k ↦ ?_, ?_⟩
  · rw [KeyMap.keys_mapValues]
    exact KeyMap.mem_keys_collect
  · intro m hm
    obtain ⟨p, hp, rfl⟩ := List.mem_map.mp hm
    rw [(KeyMap.mem_collect_iff.mp hp).2]
    exact h p.1

theorem length_flatMap_parts {holds : String → Json → Prop} {g : Json → List Json} {v : Json}
    (h : IsTable (fun k ↦ ∃ c ∈ ds, key c = k) holds v)
    (hg : ∀ k x, holds k x → (g x).length = (ds.filter (key · = k)).length) :
    (v.parts.flatMap g).length = ds.length := by
  obtain ⟨ms, rfl, hs, hkeys, hholds⟩ := h
  have hperm : ((KeyMap.keys ms).flatMap fun k ↦ ds.filter (key · = k)).Perm ds := by
    apply KeyMap.flatMap_filter_perm hs.nodup_keys
    intro c hc
    exact (hkeys (key c)).mpr ⟨c, hc, rfl⟩
  rw [← hperm.length_eq, parts, KeyMap.keys, List.flatMap_map, List.flatMap_map,
    List.length_flatMap, List.length_flatMap]
  refine congrArg List.sum (List.map_congr_left fun m hm ↦ ?_)
  exact hg m.1 m.2 (hholds m hm)

end

def addToGroup (groups : KeyMap (List Json)) (c : Change) : KeyMap (List Json) :=
  KeyMap.update c.group (fun entries ↦ entries.getD [] ++ [c.entry]) groups

def groupTable (groups : KeyMap (List Json)) : Json := .obj (groups.map fun e ↦ (e.1, .arr e.2))

theorem ofChanges_eq_collect (cs : List Change) :
    Groups.ofChanges cs = KeyMap.collect (fun c ↦ c.kind.category) addToGroup [] cs := rfl

theorem foldl_addToGroup (cs : List Change) :
    cs.foldl addToGroup [] =
      KeyMap.collect Change.group (fun entries c ↦ entries ++ [c.entry]) [] cs := rfl

theorem report_eq (cs : List Change) :
    report cs = .obj ((KeyMap.collect (fun c ↦ c.kind.category) addToGroup [] cs).map fun p ↦
      (p.1, (groupTable p.2).relabel)) := by
  rw [report, ofChanges_eq_collect]
  exact relabel_collect (F := groupTable) fun (c : Change) _ ↦ policyLabel_category c.kind

theorem reportsGroups_relabel (hgroup : ∀ c ∈ cs, policyLabel c.group = c.group)
    (hentry : ∀ c ∈ cs, c.Shows c.entry.relabel) :
    ReportsGroups cs (groupTable (cs.foldl addToGroup [])).relabel := by
  rw [foldl_addToGroup, groupTable, relabel_collect hgroup, reportsGroups_iff]
  refine isTable_collect (F := fun entries ↦ (arr entries).relabel) fun group ↦ ?_
  refine ⟨(cs.filter (·.group = group)).map fun c ↦ c.entry.relabel, ?_, ?_⟩
  · rw [List.foldl_append_eq_append, List.nil_append, ← List.flatMap_def, ← List.map_eq_flatMap,
      relabel_arr, List.map_map]
    rfl
  · rw [List.forall₂_map_right_iff, List.forall₂_same]
    intro c hc
    exact hentry c (List.mem_of_mem_filter hc)

theorem reports_report (hgroup : ∀ c ∈ cs, policyLabel c.group = c.group)
    (hentry : ∀ c ∈ cs, c.Shows c.entry.relabel) : Reports cs (report cs) := by
  rw [report_eq, reports_iff]
  refine isTable_collect (F := fun groups ↦ (groupTable groups).relabel) fun category ↦ ?_
  apply reportsGroups_relabel
  · intro c hc
    exact hgroup c (List.mem_of_mem_filter hc)
  · intro c hc
    exact hentry c (List.mem_of_mem_filter hc)

def entries (v : Json) : List Json := v.parts.flatMap fun x ↦ x.parts.flatMap parts

theorem Reports.length_entries (h : Reports cs v) : v.entries.length = cs.length := by
  refine length_flatMap_parts (reports_iff.mp h) fun category x hx ↦ ?_
  refine length_flatMap_parts (reportsGroups_iff.mp hx) fun group y hy ↦ ?_
  obtain ⟨es, rfl, hes⟩ := hy
  exact hes.length_eq.symm

/-- The report of a difference shows every change once, in the group of its category where it
belongs. Nothing else is in it, so it is empty just where the values are equal. -/
theorem report_difference_exact (hv : v.Canonical) (hw : w.Canonical) (huv : v.Unlabelled)
    (huw : w.Unlabelled) :
    Reports (difference v w) (report (difference v w)) ∧
    (report (difference v w)).entries.length = (difference v w).length ∧
    (v.Integral → w.Integral → (report (difference v w) = .obj [] ↔ v = w)) := by
  have hholds (c : Change) (hc : c ∈ difference v w) : c.Holds v w :=
    holds_of_mem_difference hv hw hc
  have hreports : Reports (difference v w) (report (difference v w)) := by
    apply reports_report
    · intro c hc
      exact (hholds c hc).policyLabel_group huv huw
    · intro c hc
      exact (hholds c hc).shows hv hw huv huw
  refine ⟨hreports, hreports.length_entries, fun hi _ ↦ ?_⟩
  rw [report_eq_iff, difference_eq_nil_iff hv hi hw]

theorem unlabelled_earlierRecord : earlierRecord.Unlabelled := by
  simp [earlierRecord, unlabelled_obj_iff, unlabelled_arr_iff, unlabelled_of_leaf, Kind.HasParts,
    kind, KeyMap.keys]

theorem unlabelled_laterRecord : laterRecord.Unlabelled := by
  simp [laterRecord, unlabelled_obj_iff, unlabelled_arr_iff, unlabelled_of_leaf, Kind.HasParts,
    kind, KeyMap.keys]

theorem report_difference_exact_laterRecord :
    Unlabelled earlierRecord ∧ Unlabelled laterRecord ∧
    report (difference earlierRecord laterRecord) = .obj [
      ("dictionary_item_added", .obj [("env", .arr [.bool true])]),
      ("dictionary_item_removed", .obj [("env", .arr [.null])]),
      ("type_changes", .obj [("level", .arr [
        .obj [("policy_value", .num (.int 2)), ("tested_value", .str "2")]])]),
      ("values_added", .obj [("mounts", .arr [.obj [("source", .str "/data")]])]),
      ("values_changed", .obj [("env", .arr [
        .obj [("policy_value", .str "/root"), ("tested_value", .str "/app")]])]),
      ("values_removed", .obj [("command", .arr [.str "--debug"])])] ∧
    (report (difference earlierRecord laterRecord)).entries.length = 6 ∧
    Reports (difference earlierRecord laterRecord)
      (report (difference earlierRecord laterRecord)) := by
  obtain ⟨hreports, hlength, -⟩ := report_difference_exact canonical_earlierRecord
    canonical_laterRecord unlabelled_earlierRecord unlabelled_laterRecord
  refine ⟨unlabelled_earlierRecord, unlabelled_laterRecord, by decide +kernel, ?_, hreports⟩
  rw [hlength]
  decide +kernel

end ConfidentialPolicy.Json

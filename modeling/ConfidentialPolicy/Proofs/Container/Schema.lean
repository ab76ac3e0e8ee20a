import ConfidentialPolicy.Container
import ConfidentialPolicy.Proofs.Checked
import ConfidentialPolicy.Proofs.Fields
import ConfidentialPolicy.Proofs.Json.Value

namespace ConfidentialPolicy

open Json Checked

namespace Json

def IsString (v : Json) : Prop := ∃ s, v = .str s

def IsBool (v : Json) : Prop := ∃ b, v = .bool b

def IsInt64 (v : Json) : Prop := ∃ n, v = .num (.int n) ∧ minInt64 ≤ n ∧ n ≤ maxInt64

def ListOf (p : Json → Prop) (v : Json) : Prop := ∃ vs, v = .arr vs ∧ ∀ w ∈ vs, p w

def ObjectOf (p : Fields → Prop) (v : Json) : Prop := ∃ ms, v = .obj ms ∧ p ⟨ms⟩

variable {v : Json} {p : Json → Prop}

theorem isString_iff : IsString v ↔ ∃ s, v.str? = some s := by
  simp only [IsString, str?_eq_some_iff]

theorem isBool_iff : IsBool v ↔ ∃ b, v.bool? = some b := by
  cases v <;> simp [IsBool, bool?]

theorem isInt64_iff : IsInt64 v ↔ ∃ n, v.int64? = some n := by
  cases v with
  | num n => cases n <;> simp [IsInt64, int64?]
  | null | bool | str | arr | obj => simp [IsInt64, int64?]

theorem listOf_iff : ListOf p v ↔ ∃ vs, v.items? = some vs ∧ ∀ w ∈ vs, p w := by
  cases v <;> simp [ListOf, items?]

theorem ListOf.exists_items? (h : ListOf p v) : ∃ vs, v.items? = some vs := by
  obtain ⟨vs, hvs, -⟩ := listOf_iff.mp h
  exact ⟨vs, hvs⟩

end Json

namespace Fields

/-- The field is there and has such a value. -/
def Needs (f : Fields) (key : String) (p : Json → Prop) : Prop := ∃ v, f.Has key v ∧ p v

/-- The field is missing or has such a value. -/
def Allows (f : Fields) (key : String) (p : Json → Prop) : Prop := ∀ v, f.Has key v → p v

variable {f : Fields} {key : String} {α β : Type} {view : Json → Option α} {p item : Json → Prop}
  {q : Prop} {next : Option α → Checked β}

theorem succeeds_bind_iff_of_get? {v : Json} (hv : f.get? key = some v)
    (hview : p v → ∃ a, view v = some a)
    (hnext : ∀ a, view v = some a → (Succeeds (next (some a)) ↔ p v ∧ q)) (path : String)
    (fault : Fault) : Succeeds (f.read key path fault view >>= next) ↔ p v ∧ q := by
  simp only [read, hv]
  cases ha : view v with
  | none =>
    refine iff_of_false (not_succeeds_error _) ?_
    rintro ⟨hp, -⟩
    obtain ⟨a, ha'⟩ := hview hp
    cases ha.symm.trans ha'
  | some a => exact hnext a ha

variable (hs : KeyMap.Sorted f.members)

include hs

theorem needs_iff : f.Needs key p ↔ ∃ v, f.get? key = some v ∧ p v := by
  simp only [Needs, get?_eq_some_iff_has hs]

theorem allows_iff : f.Allows key p ↔ ∀ v, f.get? key = some v → p v := by
  simp only [Allows, get?_eq_some_iff_has hs]

/-- Reading a field without which nothing is read. -/
theorem succeeds_bind_iff_needs (hview : ∀ v, p v → ∃ a, view v = some a)
    (hnone : ¬ Succeeds (next none)) (hsome : ∀ v a, f.get? key = some v → view v = some a →
      (Succeeds (next (some a)) ↔ p v ∧ q)) (path : String) (fault : Fault) :
    Succeeds (f.read key path fault view >>= next) ↔ f.Needs key p ∧ q := by
  rw [needs_iff hs]
  cases hv : f.get? key with
  | none =>
    simp only [read, hv]
    exact iff_of_false hnone (by simp)
  | some v => simp [succeeds_bind_iff_of_get? hv (hview v) (fun a ↦ hsome v a hv)]

/-- Reading a field that may be missing. -/
theorem succeeds_bind_iff_allows (hview : ∀ v, p v → ∃ a, view v = some a)
    (hnone : Succeeds (next none) ↔ q) (hsome : ∀ v a, f.get? key = some v → view v = some a →
      (Succeeds (next (some a)) ↔ p v ∧ q)) (path : String) (fault : Fault) :
    Succeeds (f.read key path fault view >>= next) ↔ f.Allows key p ∧ q := by
  rw [allows_iff hs]
  cases hv : f.get? key with
  | none =>
    simp only [read, hv]
    exact hnone.trans (by simp)
  | some v => simp [succeeds_bind_iff_of_get? hv (hview v) (fun a ↦ hsome v a hv)]

theorem succeeds_read_iff (hview : ∀ v, p v ↔ ∃ a, view v = some a) (path : String)
    (fault : Fault) : Succeeds (f.read key path fault view) ↔ f.Allows key p := by
  rw [allows_iff hs, read]
  cases f.get? key with
  | none => simp [Succeeds]
  | some v => cases ha : view v <;> simp [Succeeds, hview, ha]

theorem succeeds_string_iff (path : String) :
    Succeeds (f.string key path) ↔ f.Allows key IsString :=
  succeeds_read_iff hs (fun _ ↦ isString_iff) path _

theorem succeeds_bool_iff (path : String) : Succeeds (f.bool key path) ↔ f.Allows key IsBool :=
  succeeds_read_iff hs (fun _ ↦ isBool_iff) path _

theorem succeeds_listOf_iff (hview : ∀ v, item v ↔ ∃ a, view v = some a) (path : String)
    (fault : Fault) : Succeeds (f.listOf key path fault view) ↔ f.Allows key (ListOf item) := by
  unfold listOf
  rw [← and_true (f.Allows key _)]
  refine succeeds_bind_iff_allows hs (fun _ ↦ ListOf.exists_items?) ?_ ?_ _ _
  · exact iff_of_true (succeeds_ok none) trivial
  · intro v vs _ hvs
    simp only [listOf_iff, hvs, hview, Option.some.injEq, exists_eq_left', and_true,
      ← exists_mapM_option_iff]
    cases vs.mapM view <;> simp [Succeeds]

theorem succeeds_listOf_bind_iff_needs {next : Option (List α) → Checked β}
    (hview : ∀ v, item v ↔ ∃ a, view v = some a) (hnone : ¬ Succeeds (next none))
    (hsome : ∀ as, Succeeds (next (some as)) ↔ q) (path : String) (fault : Fault) :
    Succeeds (f.listOf key path fault view >>= next) ↔ f.Needs key (ListOf item) ∧ q := by
  unfold listOf
  rw [bind_assoc]
  refine succeeds_bind_iff_needs hs (fun _ ↦ ListOf.exists_items?) ?_ ?_ _ _
  · exact hnone
  · intro v vs _ hvs
    simp only [listOf_iff, hvs, hview, Option.some.injEq, exists_eq_left',
      ← exists_mapM_option_iff]
    cases vs.mapM view with
    | none => exact iff_of_false (not_succeeds_error _) (by simp)
    | some as => exact (hsome as).trans (by simp)

theorem succeeds_strings_iff (path : String) :
    Succeeds (f.strings key path) ↔ f.Allows key (ListOf IsString) :=
  succeeds_listOf_iff hs (fun _ ↦ isString_iff) path _

theorem succeeds_ints_iff (path : String) :
    Succeeds (f.ints key path) ↔ f.Allows key (ListOf IsInt64) :=
  succeeds_listOf_iff hs (fun _ ↦ isInt64_iff) path _

end Fields

/-- Objects whose fields decide are read if they fit and have their keys in order. -/
theorem succeeds_ofJson_bind_iff {β : Type} {p : Fields → Prop} {read : Fields → Checked β}
    {v : Json} (hv : v.Canonical)
    (hread : ∀ f : Fields, (obj f.members).Canonical → (Succeeds (read f) ↔ p f)) (path : String) :
    Succeeds (Fields.ofJson v path >>= read) ↔ ObjectOf p v := by
  cases v with
  | obj ms => exact (hread ⟨ms⟩ hv).trans (by simp [ObjectOf])
  | null | bool | num | str | arr =>
    exact iff_of_false (not_succeeds_error _) (by simp [ObjectOf])

structure EnvRule.Described (f : Fields) : Prop where
  name : f.Needs "name" fun _ ↦ True
  value : f.Needs "value" fun _ ↦ True
  strategy : f.Needs "strategy" fun v ↦ v = .str "string" ∨ v = .str "re2"
  required : f.Allows "required" IsBool

structure MountSpec.Described (f : Fields) : Prop where
  volume : f.Needs "type" fun v ↦ ∃ volume ∈ Volume.all, v = .str volume.name
  path : f.Needs "path" fun v ↦ ∃ s, v = .str s ∧ s ≠ ""
  readonly : f.Allows "readonly" IsBool
  options : f.Allows "options" (ListOf IsString)

structure ExecProcess.Described (f : Fields) : Prop where
  command : f.Needs "command" (ListOf IsString)
  signals : f.Allows "signals" (ListOf IsInt64)
  stdio : f.Allows "allowStdioAccess" IsBool

/-- The image may have a short name where the long one is missing. -/
def Container.HasImage (f : Fields) (v : Json) : Prop :=
  f.Has "containerImage" v ∨ (∀ w, ¬ f.Has "containerImage" w) ∧ f.Has "image" v

structure Container.Described (f : Fields) : Prop where
  image : ∃ s, s ≠ "" ∧ HasImage f (.str s)
  id : f.Allows "id" IsString
  envRules : f.Needs "environmentVariables" (ListOf (ObjectOf EnvRule.Described))
  command : f.Allows "command" (ListOf IsString)
  workingDir : f.Allows "workingDir" fun v ↦
    ∃ s, v = .str s ∧ (s = "" ∨ s.toList.head? = some '/')
  mounts : f.Allows "mounts" (ListOf (ObjectOf MountSpec.Described))
  elevated : f.Allows "allowElevated" IsBool
  execProcesses : f.Allows "execProcesses" (ListOf (ObjectOf ExecProcess.Described))
  signals : f.Allows "signals" (ListOf IsInt64)
  stdio : f.Allows "allowStdioAccess" IsBool

theorem Strategy.ofName?_isSome_iff {s : String} :
    (∃ strategy, ofName? s = some strategy) ↔ s = "string" ∨ s = "re2" := by
  unfold ofName?
  split
  · simp_all
  · split <;> simp_all

theorem EnvRule.succeeds_ofJson_iff {v : Json} (hv : v.Canonical) (path : String) :
    Succeeds (ofJson v path) ↔ ObjectOf Described v := by
  refine succeeds_ofJson_bind_iff hv (fun f hf ↦ ?_) path
  have hs : KeyMap.Sorted f.members := (canonical_obj_iff.mp hf).1
  have hiff : Described f ↔ f.Needs "strategy" (fun v ↦ v = .str "string" ∨ v = .str "re2") ∧
      f.Needs "name" (fun _ ↦ True) ∧ f.Needs "value" (fun _ ↦ True) ∧
      f.Allows "required" IsBool :=
    ⟨fun h ↦ ⟨h.strategy, h.name, h.value, h.required⟩, fun ⟨a, b, c, d⟩ ↦ ⟨b, c, a, d⟩⟩
  have hname : f.Needs "name" (fun _ ↦ True) ↔ _ := Fields.needs_iff hs
  have hvalue : f.Needs "value" (fun _ ↦ True) ↔ _ := Fields.needs_iff hs
  rw [hiff, hname, hvalue]
  refine Fields.succeeds_bind_iff_needs hs ?_ ?_ ?_ _ _
  · rintro w (rfl | rfl) <;> exact ⟨_, rfl⟩
  · cases f.get? "name" <;> cases f.get? "value" <;> exact not_succeeds_error _
  · intro w s _ hw
    rw [str?_eq_some_iff.mp hw]
    have hstrategy : (str s = str "string" ∨ str s = str "re2") ↔
        ∃ strategy, Strategy.ofName? s = some strategy := by
      simp [Strategy.ofName?_isSome_iff]
    rw [hstrategy]
    cases f.get? "name" with
    | none => simpa using not_succeeds_error _
    | some name =>
      cases f.get? "value" with
      | none => simpa using not_succeeds_error _
      | some value =>
        simp only
        cases Strategy.ofName? s with
        | none => simpa using not_succeeds_error _
        | some strategy =>
          refine (succeeds_bind_ok_iff.trans (Fields.succeeds_bool_iff hs _)).trans ?_
          simp

theorem Volume.ofName?_isSome_iff {s : String} :
    (∃ volume, ofName? s = some volume) ↔ ∃ volume ∈ all, str s = str volume.name := by
  simp only [ofName?, ← Option.isSome_iff_exists, List.find?_isSome, beq_iff_eq, str.injEq,
    eq_comm (a := s)]

theorem MountSpec.succeeds_ofJson_iff {v : Json} (hv : v.Canonical) (path : String) :
    Succeeds (ofJson v path) ↔ ObjectOf Described v := by
  refine succeeds_ofJson_bind_iff hv (fun f hf ↦ ?_) path
  have hs : KeyMap.Sorted f.members := (canonical_obj_iff.mp hf).1
  have hiff : Described f ↔
      f.Needs "type" (fun v ↦ ∃ volume ∈ Volume.all, v = .str volume.name) ∧
      f.Needs "path" (fun v ↦ ∃ s, v = .str s ∧ s ≠ "") ∧ f.Allows "readonly" IsBool ∧
      f.Allows "options" (ListOf IsString) :=
    ⟨fun h ↦ ⟨h.volume, h.path, h.readonly, h.options⟩, fun ⟨a, b, c, d⟩ ↦ ⟨a, b, c, d⟩⟩
  rw [hiff]
  refine Fields.succeeds_bind_iff_needs hs ?_ ?_ ?_ _ _
  · rintro w ⟨volume, -, rfl⟩
    exact ⟨_, rfl⟩
  · exact not_succeeds_error _
  · intro w name _ hw
    rw [str?_eq_some_iff.mp hw, ← Volume.ofName?_isSome_iff, Option.getD_some]
    cases Volume.ofName? name with
    | none => simpa using not_succeeds_error _
    | some volume =>
      rw [and_iff_right ⟨volume, rfl⟩]
      refine Fields.succeeds_bind_iff_needs hs ?_ ?_ ?_ _ _
      · rintro w ⟨s, rfl, -⟩
        exact ⟨s, rfl⟩
      · exact not_succeeds_error _
      · intro w s _ hw
        rw [str?_eq_some_iff.mp hw, Option.getD_some]
        split
        · next hempty => simpa [hempty] using not_succeeds_error _
        · next hne =>
          rw [and_iff_right ⟨s, rfl, hne⟩]
          exact succeeds_bind_iff (Fields.succeeds_bool_iff hs _) fun _ _ ↦
            succeeds_bind_ok_iff.trans (Fields.succeeds_strings_iff hs _)

theorem ExecProcess.succeeds_ofJson_iff {v : Json} (hv : v.Canonical) (stdio : Bool) :
    Succeeds (ofJson v stdio) ↔ ObjectOf Described v := by
  refine succeeds_ofJson_bind_iff hv (fun f hf ↦ ?_) _
  have hs : KeyMap.Sorted f.members := (canonical_obj_iff.mp hf).1
  have hiff : Described f ↔ f.Needs "command" (ListOf IsString) ∧
      f.Allows "signals" (ListOf IsInt64) ∧ f.Allows "allowStdioAccess" IsBool :=
    ⟨fun h ↦ ⟨h.command, h.signals, h.stdio⟩, fun ⟨a, b, c⟩ ↦ ⟨a, b, c⟩⟩
  rw [hiff]
  refine Fields.succeeds_listOf_bind_iff_needs hs (fun _ ↦ isString_iff) ?_ (fun command ↦ ?_) _ _
  · exact not_succeeds_error _
  · exact succeeds_bind_iff (Fields.succeeds_ints_iff hs _) fun _ _ ↦
      succeeds_bind_ok_iff.trans (Fields.succeeds_bool_iff hs _)

variable {f : Fields} {α : Type} {read : Json → Checked α} {p : Json → Prop}

theorem Fields.canonical_of_get? (hf : (obj f.members).Canonical) {key : String} {v : Json}
    (h : f.get? key = some v) : v.Canonical := by
  obtain ⟨hs, hmembers⟩ := canonical_obj_iff.mp hf
  obtain ⟨k, hk, -⟩ := (Fields.get?_eq_some_iff_has hs).mp h
  exact hmembers (k, v) hk

theorem succeeds_items_iff (hread : ∀ v, v.Canonical → (Succeeds (read v) ↔ p v)) {v : Json}
    {vs : List Json} (hv : v.Canonical) (hvs : v.items? = some vs) :
    Succeeds (vs.mapM read) ↔ ListOf p v := by
  obtain rfl := items?_eq_some_iff.mp hvs
  simp only [succeeds_mapM_iff, ListOf, arr.injEq, exists_eq_left']
  exact forall₂_congr fun w hw ↦ hread w (canonical_arr_iff.mp hv w hw)

theorem succeeds_records_iff (hf : (obj f.members).Canonical)
    (hread : ∀ v, v.Canonical → (Succeeds (read v) ↔ p v)) (key path : String) :
    Succeeds (f.list key path >>= fun items ↦ (items.getD []).mapM read) ↔
      f.Allows key (ListOf p) := by
  rw [← and_true (f.Allows key _)]
  have hs : KeyMap.Sorted f.members := (canonical_obj_iff.mp hf).1
  refine Fields.succeeds_bind_iff_allows hs (fun _ ↦ ListOf.exists_items?) ?_ ?_ _ _
  · exact iff_of_true (succeeds_ok []) trivial
  · intro v vs hv hvs
    rw [and_true, Option.getD_some]
    exact succeeds_items_iff hread (Fields.canonical_of_get? hf hv) hvs

namespace Container

theorem hasImage_iff (hs : KeyMap.Sorted f.members) {v : Json} :
    HasImage f v ↔ f.getAny? ["containerImage", "image"] = some v := by
  simp only [HasImage, ← Fields.get?_eq_some_iff_has hs, Fields.getAny?, List.findSome?_cons,
    List.findSome?_nil]
  cases f.get? "containerImage" with
  | none => cases f.get? "image" <;> simp
  | some w => simp

theorem succeeds_imageOf_iff (hs : KeyMap.Sorted f.members) :
    Succeeds (imageOf f) ↔ ∃ s, s ≠ "" ∧ HasImage f (.str s) := by
  simp only [hasImage_iff hs, imageOf]
  split
  · next hnone => exact iff_of_false (not_succeeds_error _) (by simp [hnone])
  · next s hs =>
    split
    · next hempty => exact iff_of_false (not_succeeds_error _) (by simp [hs, hempty])
    · next hne => exact iff_of_true (succeeds_ok s) ⟨s, hne, hs⟩
  · next v hstr hv =>
    refine iff_of_false (not_succeeds_error _) ?_
    rintro ⟨s, -, hs⟩
    exact hstr s (Option.some.inj (hv.symm.trans hs))

theorem succeeds_envRulesOf_iff (hf : (obj f.members).Canonical) : Succeeds (envRulesOf f) ↔
    f.Needs "environmentVariables" (ListOf (ObjectOf EnvRule.Described)) := by
  rw [← and_true (f.Needs _ _)]
  have hs : KeyMap.Sorted f.members := (canonical_obj_iff.mp hf).1
  refine Fields.succeeds_bind_iff_needs hs (fun _ ↦ ListOf.exists_items?) ?_ ?_ _ _
  · exact not_succeeds_error _
  · intro v vs hv hvs
    rw [and_true]
    exact succeeds_items_iff (fun w hw ↦ EnvRule.succeeds_ofJson_iff hw _)
      (Fields.canonical_of_get? hf hv) hvs

theorem succeeds_commandOf_iff (hs : KeyMap.Sorted f.members) :
    Succeeds (commandOf f) ↔ f.Allows "command" (ListOf IsString) := by
  rw [← Fields.succeeds_strings_iff hs "containers][command", commandOf]
  cases f.strings "command" "containers][command" with
  | error e => exact iff_of_false (not_succeeds_error _) (not_succeeds_error _)
  | ok command => exact iff_of_true (succeeds_ok _) (succeeds_ok _)

theorem succeeds_workingDirOf_iff (hs : KeyMap.Sorted f.members) : Succeeds (workingDirOf f) ↔
    f.Allows "workingDir" fun v ↦ ∃ s, v = .str s ∧ (s = "" ∨ s.toList.head? = some '/') := by
  rw [← and_true (f.Allows _ _)]
  refine Fields.succeeds_bind_iff_allows hs ?_ ?_ ?_ _ _
  · rintro v ⟨s, rfl, -⟩
    exact ⟨s, rfl⟩
  · exact iff_of_true (succeeds_ok "/") trivial
  · intro v s _ hv
    simp only [str?_eq_some_iff.mp hv, Option.getD_some, str.injEq, exists_eq_left', and_true]
    split
    · next hempty => exact iff_of_true (succeeds_ok "/") (.inl hempty)
    · next hne =>
      split
      · next hroot => exact iff_of_true (succeeds_ok s) (.inr hroot)
      · next hother => exact iff_of_false (not_succeeds_error _) (by simp [hne, hother])

theorem exists_ofSpec_iff {raw : Json} (hraw : raw.Canonical) (role : Role) (options : Options) :
    (∃ c, ofSpec raw role options = .ok c) ↔ ObjectOf Described raw := by
  refine succeeds_ofJson_bind_iff hraw (fun f hf ↦ ?_) _
  have hs : KeyMap.Sorted f.members := (canonical_obj_iff.mp hf).1
  refine (succeeds_bind_iff (succeeds_imageOf_iff hs) fun image _ ↦
    succeeds_bind_iff (Fields.succeeds_string_iff hs _) fun id _ ↦
    succeeds_bind_iff (succeeds_envRulesOf_iff hf) fun envRules _ ↦
    succeeds_bind_iff (succeeds_commandOf_iff hs) fun command _ ↦
    succeeds_bind_iff (succeeds_workingDirOf_iff hs) fun workingDir _ ↦
    succeeds_bind_iff (succeeds_records_iff hf (fun v hv ↦ MountSpec.succeeds_ofJson_iff hv _) _ _)
      fun mounts _ ↦
    succeeds_bind_iff (Fields.succeeds_bool_iff hs _) fun elevated _ ↦
    succeeds_bind_iff
      (succeeds_records_iff hf (fun v hv ↦ ExecProcess.succeeds_ofJson_iff hv _) _ _)
      fun processes _ ↦
    succeeds_bind_iff (Fields.succeeds_ints_iff hs _) fun signals _ ↦
    succeeds_bind_ok_iff.trans (Fields.succeeds_bool_iff hs _)).trans ?_
  constructor
  · rintro ⟨image, id, envRules, command, workingDir, mounts, elevated, processes, signals, stdio⟩
    exact ⟨image, id, envRules, command, workingDir, mounts, elevated, processes, signals, stdio⟩
  · intro h
    exact ⟨h.image, h.id, h.envRules, h.command, h.workingDir, h.mounts, h.elevated,
      h.execProcesses, h.signals, h.stdio⟩

theorem malformedOnly_envRule (v : Json) (path : String) :
    MalformedOnly (EnvRule.ofJson v path) := by
  refine malformedOnly_bind (Fields.malformedOnly_ofJson v path) fun f ↦ ?_
  refine malformedOnly_bind (f.malformedOnly_string _ _) fun strategy ↦ ?_
  split
  · split
    · exact malformedOnly_error rfl
    · exact malformedOnly_bind (f.malformedOnly_bool _ _) fun required ↦ malformedOnly_ok _
  · exact malformedOnly_error rfl

theorem malformedOnly_mount (v : Json) (path : String) :
    MalformedOnly (MountSpec.ofJson v path) := by
  refine malformedOnly_bind (Fields.malformedOnly_ofJson v path) fun f ↦ ?_
  refine malformedOnly_bind (f.malformedOnly_string _ _) fun name ↦ ?_
  split
  · exact malformedOnly_error rfl
  · refine malformedOnly_bind (f.malformedOnly_string _ _) fun destination ↦ ?_
    split
    · exact malformedOnly_error rfl
    · refine malformedOnly_bind (f.malformedOnly_bool _ _) fun readonly ↦ ?_
      exact malformedOnly_bind (f.malformedOnly_strings _ _) fun options ↦ malformedOnly_ok _

theorem malformedOnly_process (v : Json) (stdio : Bool) :
    MalformedOnly (ExecProcess.ofJson v stdio) := by
  refine malformedOnly_bind (Fields.malformedOnly_ofJson v _) fun f ↦ ?_
  refine malformedOnly_bind (f.malformedOnly_strings _ _) fun command ↦ ?_
  split
  · exact malformedOnly_error rfl
  · refine malformedOnly_bind (f.malformedOnly_ints _ _) fun signals ↦ ?_
    exact malformedOnly_bind (f.malformedOnly_bool _ _) fun own ↦ malformedOnly_ok _

variable (f : Fields)

theorem malformedOnly_imageOf : MalformedOnly (imageOf f) := by
  unfold imageOf
  split
  · exact malformedOnly_error rfl
  · split
    · exact malformedOnly_error rfl
    · exact malformedOnly_ok _
  · exact malformedOnly_error rfl

theorem malformedOnly_envRulesOf : MalformedOnly (envRulesOf f) := by
  refine malformedOnly_bind (f.malformedOnly_list _ _) fun items ↦ ?_
  split
  · exact malformedOnly_error rfl
  · exact malformedOnly_mapM (malformedOnly_envRule · _) _

theorem malformedOnly_commandOf : MalformedOnly (commandOf f) := by
  unfold commandOf
  split
  · exact malformedOnly_ok _
  · exact malformedOnly_error rfl

theorem malformedOnly_workingDirOf : MalformedOnly (workingDirOf f) := by
  refine malformedOnly_bind (f.malformedOnly_string _ _) fun dir ↦ ?_
  simp only
  split
  · exact malformedOnly_ok _
  · split
    · exact malformedOnly_ok _
    · exact malformedOnly_error rfl

theorem malformedOnly_mountsOf : MalformedOnly (mountsOf f) :=
  malformedOnly_bind (f.malformedOnly_list _ _) fun _ ↦
    malformedOnly_mapM (malformedOnly_mount · _) _

theorem malformedOnly_execProcessesOf (stdio : Bool) : MalformedOnly (execProcessesOf f stdio) :=
  malformedOnly_bind (f.malformedOnly_list _ _) fun _ ↦
    malformedOnly_mapM (malformedOnly_process · stdio) _

theorem malformedOnly_ofSpec (raw : Json) (role : Role) (options : Options) :
    MalformedOnly (ofSpec raw role options) := by
  refine malformedOnly_bind (Fields.malformedOnly_ofJson raw _) fun f ↦ ?_
  refine malformedOnly_bind (malformedOnly_imageOf f) fun image ↦ ?_
  refine malformedOnly_bind (f.malformedOnly_string _ _) fun id ↦ ?_
  refine malformedOnly_bind (malformedOnly_envRulesOf f) fun envRules ↦ ?_
  refine malformedOnly_bind (malformedOnly_commandOf f) fun command ↦ ?_
  refine malformedOnly_bind (malformedOnly_workingDirOf f) fun workingDir ↦ ?_
  refine malformedOnly_bind (malformedOnly_mountsOf f) fun mounts ↦ ?_
  refine malformedOnly_bind (f.malformedOnly_bool _ _) fun elevated ↦ ?_
  refine malformedOnly_bind (malformedOnly_execProcessesOf f _) fun processes ↦ ?_
  refine malformedOnly_bind (f.malformedOnly_ints _ _) fun signals ↦ ?_
  exact malformedOnly_bind (f.malformedOnly_bool _ _) fun stdio ↦ malformedOnly_ok _

/-- A container is built from a description just where it fits the schema; from any other one the
error is that it is malformed. -/
theorem ofSpec_accepts_schema {raw : Json} (hraw : raw.Canonical) (role : Role)
    (options : Options) : ((∃ c, ofSpec raw role options = .ok c) ↔ ObjectOf Described raw) ∧
      ∀ e, ofSpec raw role options = .error e → e.kind = .malformedInput :=
  ⟨exists_ofSpec_iff hraw role options, malformedOnly_ofSpec raw role options⟩

def oddDescription : Json := .obj [
  ("COMMAND", .null),
  ("ContainerImage", .null),
  ("command", .bool true),
  ("containerImage", .str "other:1"),
  ("environmentVariables", .arr [.obj [
    ("Strategy", .str "re2"), ("name", .num (.int 1)), ("value", .arr [])]]),
  ("execProcesses", .arr [.obj [("Command", .arr []), ("signals", .arr [.num (.int (-1))])]]),
  ("image", .str "image:1"),
  ("mounts", .arr [.obj [("PATH", .str "/m"), ("options", .arr []), ("type", .str "secret")]]),
  ("workingDir", .str "")]

theorem canonical_oddDescription : oddDescription.Canonical := by
  rw [← show oddDescription.canonicalize = oddDescription by decide +kernel]
  exact canonical_canonicalize oddDescription

theorem described_oddDescription :
    oddDescription.Canonical ∧ ObjectOf Described oddDescription := by
  have h := ofSpec_accepts_schema canonical_oddDescription .user {}
  exact ⟨canonical_oddDescription, h.1.mp ⟨_, rfl⟩⟩

end Container

end ConfidentialPolicy

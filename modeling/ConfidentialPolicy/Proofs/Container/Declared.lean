import ConfidentialPolicy.Container
import ConfidentialPolicy.Proofs.Checked
import ConfidentialPolicy.Proofs.Fields
import ConfidentialPolicy.Proofs.Json.Value

namespace ConfidentialPolicy

open Json Checked

namespace Fields

variable {f : Fields} {key path : String} {fault : Fault} {α : Type} {view : Json → Option α}
  {embed : α → Json}

/-- A view that can be undone gives the field back. -/
theorem get?_of_read (hview : ∀ v a, view v = some a → v = embed a) {o : Option α}
    (h : f.read key path fault view = .ok o) : f.get? key = o.map embed := by
  rcases read_eq_ok h with ⟨hv, rfl⟩ | ⟨v, a, hv, ha, rfl⟩
  · exact hv
  · rw [hv, hview v a ha, Option.map_some]

theorem get?_of_string {o : Option String} (h : f.string key path = .ok o) :
    f.get? key = o.map .str :=
  get?_of_read (fun _ _ ↦ str?_eq_some_iff.mp) h

theorem get?_of_bool {o : Option Bool} (h : f.bool key path = .ok o) :
    f.get? key = o.map .bool := by
  refine get?_of_read (fun v b hv ↦ ?_) h
  cases v <;> simp_all [bool?]

theorem get?_of_list {o : Option (List Json)} (h : f.list key path = .ok o) :
    f.get? key = o.map .arr :=
  get?_of_read (fun _ _ ↦ items?_eq_some_iff.mp) h

theorem get?_of_listOf (hview : ∀ v a, view v = some a → v = embed a) {o : Option (List α)}
    (h : f.listOf key path fault view = .ok o) :
    f.get? key = o.map fun as ↦ .arr (as.map embed) := by
  obtain ⟨found, hfound, h⟩ := bind_eq_ok_iff.mp h
  rw [get?_of_list hfound]
  cases found with
  | none =>
    cases h
    rfl
  | some vs =>
    simp only at h
    split at h
    · next as has =>
      cases h
      rw [Option.map_some, eq_map_of_mapM_option hview has, Option.map_some]
    · cases h

theorem get?_of_strings {o : Option (List String)} (h : f.strings key path = .ok o) :
    f.get? key = o.map .ofStrings :=
  get?_of_listOf (fun _ _ ↦ str?_eq_some_iff.mp) h

theorem get?_of_ints {o : Option (List Int)} (h : f.ints key path = .ok o) :
    f.get? key = o.map fun ns ↦ .arr (ns.map .ofInt) := by
  refine get?_of_listOf (fun v n hv ↦ ?_) h
  unfold int64? at hv
  split at hv
  · split at hv
    · cases hv
      rfl
    · cases hv
  · cases hv

end Fields

namespace Json

def field? (raw : Json) (key : String) : Option Json :=
  raw.members?.bind fun ms ↦ (Fields.mk ms).get? key

def fieldItems (raw : Json) (key : String) : List Json := ((raw.field? key).bind items?).getD []

end Json

theorem Fields.field?_eq_get? {raw : Json} {path : String} {f : Fields}
    (h : Fields.ofJson raw path = .ok f) (key : String) : raw.field? key = f.get? key := by
  unfold Fields.ofJson at h
  split at h
  · cases h
    rfl
  · cases h

structure EnvRule.Declared (raw : Json) (r : EnvRule) : Prop where
  pattern : ∃ name value, raw.field? "name" = some name ∧ raw.field? "value" = some value ∧
    r.pattern = scalarText name ++ "=" ++ scalarText value
  strategy : raw.field? "strategy" = some (.str r.strategy.name)
  required : (raw.field? "required").getD (.bool false) = .bool r.required

/-- A mount that is declared by an item; an empty list of options counts as none. -/
structure MountSpec.Declared (raw : Json) (s : MountSpec) : Prop where
  volume : raw.field? "type" = some (.str s.volume.name)
  path : raw.field? "path" = some (.str s.path)
  readonly : (raw.field? "readonly").getD (.bool false) = .bool s.readonly
  options : (raw.field? "options").getD (.arr []) = .ofStrings (s.options.getD [])
  options_ne : s.options ≠ some []

/-- A process that is declared by an item; `usual` holds where the item does not say if it gets the
standard streams. -/
structure ExecProcess.Declared (usual : Bool) (raw : Json) (p : ExecProcess) : Prop where
  command : raw.field? "command" = some (.ofStrings p.command)
  signals : (raw.field? "signals").getD (.arr []) = .arr (p.signals.map .ofInt)
  stdio : (raw.field? "allowStdioAccess").getD (.bool usual) = .bool p.stdio

variable {raw : Json} {path : String}

theorem Strategy.name_of_ofName? {s : String} {strategy : Strategy}
    (h : ofName? s = some strategy) : strategy.name = s := by
  unfold ofName? at h
  split at h
  · next hs =>
    cases h
    exact hs.symm
  · split at h
    · next hs =>
      cases h
      exact hs.symm
    · cases h

theorem EnvRule.declared_of_ofJson {r : EnvRule} (h : ofJson raw path = .ok r) :
    Declared raw r := by
  obtain ⟨f, hf, h⟩ := bind_eq_ok_iff.mp h
  obtain ⟨strategy, hstrategy, h⟩ := bind_eq_ok_iff.mp h
  have hget := Fields.field?_eq_get? hf
  split at h
  · next name value s hname hvalue =>
    split at h
    · cases h
    · next strategy hs =>
      obtain ⟨required, hrequired, h⟩ := bind_eq_ok_iff.mp h
      cases h
      refine ⟨⟨name, value, ?_, ?_, rfl⟩, ?_, ?_⟩
      · rw [hget, hname]
      · rw [hget, hvalue]
      · rw [hget, Fields.get?_of_string hstrategy, make, Strategy.name_of_ofName? hs]
        rfl
      · rw [hget, Fields.get?_of_bool hrequired]
        cases required <;> rfl
  · cases h

theorem Volume.name_of_ofName? {s : String} {volume : Volume} (h : ofName? s = some volume) :
    volume.name = s := by
  have hname := List.find?_some h
  exact eq_of_beq hname

theorem MountSpec.declared_of_ofJson {s : MountSpec} (h : ofJson raw path = .ok s) :
    Declared raw s := by
  obtain ⟨f, hf, h⟩ := bind_eq_ok_iff.mp h
  obtain ⟨name, hname, h⟩ := bind_eq_ok_iff.mp h
  have hget := Fields.field?_eq_get? hf
  split at h
  · cases h
  · next volume hvolume =>
    obtain ⟨destination, hdestination, h⟩ := bind_eq_ok_iff.mp h
    split at h
    · cases h
    · next hne =>
      obtain ⟨readonly, hreadonly, h⟩ := bind_eq_ok_iff.mp h
      obtain ⟨options, hoptions, h⟩ := bind_eq_ok_iff.mp h
      cases h
      refine ⟨?_, ?_, ?_, ?_, ?_⟩
      · -- No volume has the empty name, so there is a name.
        rw [hget, Fields.get?_of_string hname, Volume.name_of_ofName? hvolume]
        cases name with
        | none => cases hvolume
        | some name => rfl
      · rw [hget, Fields.get?_of_string hdestination]
        cases destination with
        | none => exact absurd rfl hne
        | some destination => rfl
      · rw [hget, Fields.get?_of_bool hreadonly]
        cases readonly <;> rfl
      · rw [hget, Fields.get?_of_strings hoptions]
        rcases options with _ | _ | _ <;> rfl
      · intro hnil
        obtain ⟨-, hempty⟩ := Option.filter_eq_some_iff.mp hnil
        cases hempty

theorem ExecProcess.declared_of_ofJson {usual : Bool} {p : ExecProcess}
    (h : ofJson raw usual = .ok p) : Declared usual raw p := by
  obtain ⟨f, hf, h⟩ := bind_eq_ok_iff.mp h
  obtain ⟨command, hcommand, h⟩ := bind_eq_ok_iff.mp h
  have hget := Fields.field?_eq_get? hf
  cases command with
  | none => cases h
  | some command =>
    obtain ⟨signals, hsignals, h⟩ := bind_eq_ok_iff.mp h
    obtain ⟨own, hown, h⟩ := bind_eq_ok_iff.mp h
    cases h
    refine ⟨?_, ?_, ?_⟩
    · rw [hget, Fields.get?_of_strings hcommand, Option.map_some]
    · rw [hget, Fields.get?_of_ints hsignals]
      cases signals <;> rfl
    · rw [hget, Fields.get?_of_bool hown]
      cases own <;> rfl

namespace Container

def imageField? (raw : Json) : Option String :=
  ((raw.field? "containerImage").or (raw.field? "image")).bind str?

/-- A container that has what its description declares and nothing else. -/
structure AsDeclared (raw : Json) (usual : Bool) (c : Container) : Prop where
  image : imageField? raw = some c.image
  envRules : List.Forall₂ EnvRule.Declared (raw.fieldItems "environmentVariables") c.envRules
  mounts : ∃ specs, List.Forall₂ MountSpec.Declared (raw.fieldItems "mounts") specs ∧
    c.mounts = specs.map MountSpec.build
  execProcesses : List.Forall₂ (ExecProcess.Declared usual) (raw.fieldItems "execProcesses")
    c.execProcesses
  kind : c.kind = .plain

theorem fieldItems_of_list {f : Fields} (hf : Fields.ofJson raw path = .ok f) {key : String}
    {place : String} {items : Option (List Json)} (h : f.list key place = .ok items) :
    raw.fieldItems key = items.getD [] := by
  rw [fieldItems, Fields.field?_eq_get? hf, Fields.get?_of_list h]
  cases items <;> rfl

theorem forall₂_of_mapM {α : Type} {read : Json → Checked α} {R : Json → α → Prop}
    (hread : ∀ v a, read v = .ok a → R v a) {vs : List Json} {as : List α}
    (h : vs.mapM read = .ok as) : List.Forall₂ R vs as :=
  (mapM_eq_ok_iff.mp h).imp hread

section

variable {f : Fields} (hf : Fields.ofJson raw path = .ok f)

include hf

theorem imageField?_of_imageOf {image : String} (h : imageOf f = .ok image) :
    imageField? raw = some image := by
  have hany : f.getAny? ["containerImage", "image"] =
      (raw.field? "containerImage").or (raw.field? "image") := by
    rw [Fields.field?_eq_get? hf, Fields.field?_eq_get? hf, Fields.getAny?]
    simp only [List.findSome?_cons, List.findSome?_nil]
    cases f.get? "containerImage" <;> cases f.get? "image" <;> rfl
  rw [imageField?, ← hany]
  simp only [imageOf] at h
  split at h
  · cases h
  · next s hs =>
    split at h
    · cases h
    · cases h
      rw [hs]
      rfl
  · cases h

theorem forall₂_envRulesOf {rules : List EnvRule} (h : envRulesOf f = .ok rules) :
    List.Forall₂ EnvRule.Declared (raw.fieldItems "environmentVariables") rules := by
  obtain ⟨items, hitems, h⟩ := bind_eq_ok_iff.mp h
  rw [fieldItems_of_list hf hitems]
  cases items with
  | none => cases h
  | some items => exact forall₂_of_mapM (fun _ _ ↦ EnvRule.declared_of_ofJson) h

theorem forall₂_mountsOf {specs : List MountSpec} (h : mountsOf f = .ok specs) :
    List.Forall₂ MountSpec.Declared (raw.fieldItems "mounts") specs := by
  obtain ⟨items, hitems, h⟩ := bind_eq_ok_iff.mp h
  rw [fieldItems_of_list hf hitems]
  exact forall₂_of_mapM (fun _ _ ↦ MountSpec.declared_of_ofJson) h

theorem forall₂_execProcessesOf {usual : Bool} {processes : List ExecProcess}
    (h : execProcessesOf f usual = .ok processes) :
    List.Forall₂ (ExecProcess.Declared usual) (raw.fieldItems "execProcesses") processes := by
  obtain ⟨items, hitems, h⟩ := bind_eq_ok_iff.mp h
  rw [fieldItems_of_list hf hitems]
  exact forall₂_of_mapM (fun _ _ ↦ ExecProcess.declared_of_ofJson) h

end

theorem ofRole_plain (isSidecar : Bool) : ContainerKind.ofRole .plain isSidecar = .plain := by
  cases isSidecar <;> rfl

theorem asDeclared_of_ofSpec {options : Options} {c : Container}
    (h : ofSpec raw .plain options = .ok c) :
    AsDeclared raw (options.sidecars.isSidecar c.image || options.debugMode) c := by
  obtain ⟨f, hf, h⟩ := bind_eq_ok_iff.mp h
  obtain ⟨image, himage, h⟩ := bind_eq_ok_iff.mp h
  obtain ⟨id, -, h⟩ := bind_eq_ok_iff.mp h
  obtain ⟨envRules, henvRules, h⟩ := bind_eq_ok_iff.mp h
  obtain ⟨command, -, h⟩ := bind_eq_ok_iff.mp h
  obtain ⟨workingDir, -, h⟩ := bind_eq_ok_iff.mp h
  obtain ⟨mounts, hmounts, h⟩ := bind_eq_ok_iff.mp h
  obtain ⟨elevated, -, h⟩ := bind_eq_ok_iff.mp h
  obtain ⟨processes, hprocesses, h⟩ := bind_eq_ok_iff.mp h
  obtain ⟨signals, -, h⟩ := bind_eq_ok_iff.mp h
  obtain ⟨stdio, -, h⟩ := bind_eq_ok_iff.mp h
  cases h
  refine ⟨imageField?_of_imageOf hf himage, forall₂_envRulesOf hf henvRules,
    ⟨mounts, forall₂_mountsOf hf hmounts, ?_⟩, ?_, ofRole_plain _⟩
  · simp [buildMounts, Role.mounts]
  · -- The shell is for users, which containers without a role are not.
    simpa [ofRole_plain, ContainerKind.isUser] using forall₂_execProcessesOf hf hprocesses

end Container

end ConfidentialPolicy

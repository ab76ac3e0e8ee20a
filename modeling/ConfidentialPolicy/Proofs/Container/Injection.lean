import ConfidentialPolicy.Proofs.Container
import ConfidentialPolicy.Proofs.Container.Declared
import ConfidentialPolicy.Proofs.EnvRule.Merging

namespace ConfidentialPolicy

open Json Checked

namespace Json

def recordItems (record : Json) (key : String) : List Json :=
  ((record.get? key).bind items?).getD []

def withoutInjected (record : Json) : Json :=
  ((record.erase "env_rules").erase "exec_processes").erase "mounts"

end Json

namespace Container

variable {c : Container} {key : String}

theorem get?_record {v : Json} (h : (key, v) ∈ c.members) (hkey : key ≠ "id") (omitId : Bool) :
    (c.record omitId).get? key = some v := by
  cases omitId with
  | false => exact KeyMap.get?_of_mem c.sorted_members h
  | true =>
    have hmem : (key, v) ∈ KeyMap.erase c.members "id" :=
      List.mem_filter.mpr ⟨h, decide_eq_true hkey⟩
    exact KeyMap.get?_of_mem (c.sorted_members.erase "id") hmem

theorem recordItems_of_mem {items : List Json} (h : (key, .arr items) ∈ c.members)
    (hkey : key ≠ "id") (omitId : Bool) : (c.record omitId).recordItems key = items := by
  rw [recordItems, get?_record h hkey]
  rfl

theorem recordItems_envRules (c : Container) (omitId : Bool) :
    (c.record omitId).recordItems "env_rules" = c.effectiveEnvRules.map EnvRule.toJson :=
  recordItems_of_mem (by simp [members]) (by decide) omitId

theorem recordItems_execProcesses (c : Container) (omitId : Bool) :
    (c.record omitId).recordItems "exec_processes" = c.execProcesses.map ExecProcess.toJson :=
  recordItems_of_mem (by simp [members]) (by decide) omitId

theorem recordItems_mounts (c : Container) (omitId : Bool) :
    (c.record omitId).recordItems "mounts" = c.mounts.map Mount.toJson := by
  by_cases hmounts : c.mounts = []
  · have hnone : (c.record omitId).get? "mounts" = none := by
      cases omitId <;> simp [record, members, hmounts, Json.get?, KeyMap.erase, KeyMap.get?_cons]
    rw [recordItems, hnone, hmounts]
    rfl
  · exact recordItems_of_mem (by simp [members, hmounts]) (by decide) omitId

/-- A record whose rules, mounts and processes are those that a description declares, in order. -/
structure OnlyDeclared (raw record : Json) : Prop where
  envRules : ∃ rules,
    List.Forall₂ EnvRule.Declared (raw.fieldItems "environmentVariables") rules ∧
      record.recordItems "env_rules" = rules.map EnvRule.toJson
  mounts : ∃ specs, List.Forall₂ MountSpec.Declared (raw.fieldItems "mounts") specs ∧
    record.recordItems "mounts" = specs.map fun s ↦ s.build.toJson
  execProcesses : ∃ processes,
    List.Forall₂ (ExecProcess.Declared true) (raw.fieldItems "execProcesses") processes ∧
      record.recordItems "exec_processes" = processes.map ExecProcess.toJson

theorem AsDeclared.onlyDeclared {raw : Json} (h : AsDeclared raw true c) (omitId : Bool) :
    OnlyDeclared raw (c.record omitId) where
  envRules := by
    refine ⟨c.envRules, h.envRules, ?_⟩
    rw [recordItems_envRules, effectiveEnvRules, h.kind]
    rfl
  mounts := by
    obtain ⟨specs, hspecs, hmounts⟩ := h.mounts
    refine ⟨specs, hspecs, ?_⟩
    rw [recordItems_mounts, hmounts, List.map_map]
    rfl
  execProcesses := ⟨c.execProcesses, h.execProcesses, recordItems_execProcesses c omitId⟩

section

variable {raw : Json} {image : String} {options options' : Options}
  (himage : imageField? raw = some image)
  (hkey : imageBase image ∈ KeyMap.keys options.sidecars.entries)
  (htable : options'.sidecars = options.sidecars)

include himage hkey htable

/-- The role and debug mode are asked for only where the image is no sidecar. -/
theorem ofSpec_eq_of_sidecar (role role' : Role) :
    ofSpec raw role' options' = ofSpec raw role options := by
  refine agree_eq_iff.mp (agree_bind_eq_ok rfl fun f hf ↦ ?_)
  refine agree_bind_eq_ok rfl fun own hown ↦ ?_
  obtain rfl : image = own := Option.some.inj (himage.symm.trans (imageField?_of_imageOf hf hown))
  have hsidecar : options.sidecars.isSidecar image = true := KeyMap.mem_keys_iff.mp hkey
  simp only [htable, hsidecar, Bool.true_or, ContainerKind.ofRole, if_true,
    ContainerKind.isUser, Bool.and_false, buildMounts]
  exact agree_eq_iff.mpr rfl

/-- Sidecars get nothing injected: whatever the role is, and with debug mode on or off, they fail
with the same error or are the same container, which has what is declared and nothing else. -/
theorem agree_ofSpec_of_sidecar (role role' : Role) :
    Agree (fun c d ↦ d = c ∧ ∀ omitId, OnlyDeclared raw (c.record omitId))
      (ofSpec raw role options) (ofSpec raw role' options') := by
  rw [ofSpec_eq_of_sidecar himage hkey htable role role',
    ← ofSpec_eq_of_sidecar himage hkey rfl role .plain]
  cases hplain : ofSpec raw .plain options with
  | error e => exact .error e
  | ok c =>
    have hdeclared := asDeclared_of_ofSpec hplain
    have hsidecar : options.sidecars.isSidecar c.image = true := by
      rw [Option.some.inj (hdeclared.image.symm.trans himage)]
      exact KeyMap.mem_keys_iff.mp hkey
    rw [hsidecar, Bool.true_or] at hdeclared
    exact .ok ⟨rfl, hdeclared.onlyDeclared⟩

end

def adapterDescription : Json := .obj [
  ("environmentVariables", .arr [.obj [
    ("name", .str "TERM"), ("strategy", .str "string"), ("value", .str "vt100")]]),
  ("execProcesses", .arr [.obj [("command", .ofStrings ["ready"])],
    .obj [("allowStdioAccess", .bool false), ("command", .ofStrings ["live"])]]),
  ("image", .str "mcr.microsoft.com/aci/msi-atlas-adapter:1"),
  ("mounts", .arr [.obj [("path", .str "/root/keys"), ("type", .str "secret")]])]

def debugOptions : Options := { debugMode := true, infrastructureSvn := some 7 }

theorem agree_ofSpec_of_sidecar_adapter :
    imageField? adapterDescription = some "mcr.microsoft.com/aci/msi-atlas-adapter:1" ∧
    imageBase "mcr.microsoft.com/aci/msi-atlas-adapter:1" ∈
      KeyMap.keys ({} : Options).sidecars.entries ∧
    debugOptions.sidecars = ({} : Options).sidecars ∧
    (∃ c, ofSpec adapterDescription .user {} = .ok c ∧ c.execProcesses =
      [⟨["ready"], [], true⟩, ⟨["live"], [], false⟩]) ∧
    Agree (fun c d ↦ d = c ∧ ∀ omitId, OnlyDeclared adapterDescription (c.record omitId))
      (ofSpec adapterDescription .user {})
      (ofSpec adapterDescription (.virtualNode true true) debugOptions) := by
  have himage : imageField? adapterDescription =
      some "mcr.microsoft.com/aci/msi-atlas-adapter:1" := by decide +kernel
  have hkey : imageBase "mcr.microsoft.com/aci/msi-atlas-adapter:1" ∈
      KeyMap.keys ({} : Options).sidecars.entries := by decide +kernel
  have htable : debugOptions.sidecars = ({} : Options).sidecars := rfl
  refine ⟨himage, hkey, htable, by decide +kernel, ?_⟩
  exact agree_ofSpec_of_sidecar himage hkey htable .user (.virtualNode true true)

end Container

def Role.injectedRules (role : Role) : List EnvRule := (ContainerKind.ofRole role false).extraRules

theorem ContainerKind.extraRules_ofRole (role : Role) (isSidecar : Bool) :
    (ofRole role isSidecar).extraRules = if isSidecar then [] else role.injectedRules := by
  cases isSidecar <;> rfl

/-- Flags of a virtual node add their rules and mounts and take none away. -/
theorem Role.injectedRules_prefix (privileged workloadIdentity p w : Bool) :
    (virtualNode privileged workloadIdentity).injectedRules <+:
      (virtualNode (privileged || p) (workloadIdentity || w)).injectedRules := by
  cases workloadIdentity with
  | false => exact (List.prefix_append_right_inj _).mpr List.nil_prefix
  | true => exact List.prefix_rfl

-- The mounts of privileged nodes come before the tokens, so this is no prefix.
theorem Role.mounts_sublist (privileged workloadIdentity p w : Bool) :
    (virtualNode privileged workloadIdentity).mounts.Sublist
      (virtualNode (privileged || p) (workloadIdentity || w)).mounts := by
  have hflag (a b : Bool) (specs : List MountSpec) :
      (if a then specs else []).Sublist (if a || b then specs else []) := by
    cases a with
    | false => exact List.nil_sublist _
    | true => exact List.Sublist.refl _
  exact ((List.Sublist.refl _).append (hflag privileged p _)).append (hflag workloadIdentity w _)

namespace Container

def withRole (c : Container) (role : Role) (options : Options) : Container :=
  let isSidecar := options.sidecars.isSidecar c.image
  let kind := ContainerKind.ofRole role isSidecar
  { c with
    mounts := c.mounts ++ buildMounts [] role isSidecar
    execProcesses := c.execProcesses ++
      if options.debugMode && kind.isUser then [ExecProcess.shell] else []
    kind }

theorem agree_withRole (raw : Json) (role : Role) (options : Options) :
    Agree (fun c d ↦ d = c.withRole role options) (ofSpec raw .plain options)
      (ofSpec raw role options) := by
  refine agree_bind_of_eq rfl fun f ↦ ?_
  refine agree_bind_of_eq rfl fun image ↦ ?_
  refine agree_bind_of_eq rfl fun id ↦ ?_
  refine agree_bind_of_eq rfl fun envRules ↦ ?_
  refine agree_bind_of_eq rfl fun command ↦ ?_
  refine agree_bind_of_eq rfl fun workingDir ↦ ?_
  refine agree_bind_of_eq rfl fun mounts ↦ ?_
  refine agree_bind_of_eq rfl fun elevated ↦ ?_
  refine agree_bind_of_eq rfl fun processes ↦ ?_
  refine agree_bind_of_eq rfl fun signals ↦ ?_
  refine agree_bind_of_eq rfl fun stdio ↦ .ok ?_
  have hmounts (isSidecar : Bool) : buildMounts mounts role isSidecar =
      buildMounts mounts .plain isSidecar ++ buildMounts [] role isSidecar := by
    cases isSidecar <;> simp [buildMounts, Role.mounts]
  simp only [withRole, hmounts, ofRole_plain, ContainerKind.isUser, Bool.and_false,
    Bool.false_eq_true, if_false, List.append_nil]

theorem ofSpec_eq_map (raw : Json) (role : Role) (options : Options) :
    ofSpec raw role options = (ofSpec raw .plain options).map (·.withRole role options) :=
  (agree_withRole raw role options).eq_map

section

variable (c : Container) (role : Role) (options : Options)

theorem withoutInjected_withRole (omitId : Bool) :
    ((c.withRole role options).record omitId).withoutInjected =
      (c.record omitId).withoutInjected := by
  have hothers (c : Container) : (c.record omitId).withoutInjected = .obj (
      [("allow_elevated", .bool c.elevated), ("allow_stdio_access", .bool c.stdio),
        ("command", .ofStrings c.command)] ++
      (if omitId then [] else [("id", .str c.id)]) ++
      [("layers", .ofStrings c.layers), ("signals", .arr (c.signals.map .ofInt)),
        ("working_dir", .str c.workingDir)]) := by
    by_cases hmounts : c.mounts = [] <;> cases omitId <;>
      simp [record, members, withoutInjected, Json.erase, KeyMap.erase, hmounts]
  rw [hothers, hothers]
  rfl

theorem recordItems_mounts_withRole (omitId : Bool) :
    ((c.withRole role options).record omitId).recordItems "mounts" =
      (c.record omitId).recordItems "mounts" ++
        (buildMounts [] role (options.sidecars.isSidecar c.image)).map Mount.toJson := by
  rw [recordItems_mounts, recordItems_mounts, withRole, List.map_append]

theorem execProcesses_prefix (omitId : Bool) :
    (c.record omitId).recordItems "exec_processes" <+:
      ((c.withRole role options).record omitId).recordItems "exec_processes" := by
  rw [recordItems_execProcesses, recordItems_execProcesses, withRole, List.map_append]
  exact List.prefix_append _ _

def extraRules (c : Container) (role : Role) (options : Options) : List EnvRule :=
  if options.sidecars.isSidecar c.image then [] else role.injectedRules

theorem effectiveEnvRules_withRole : (c.withRole role options).effectiveEnvRules =
    EnvRule.merge c.envRules (extraRules c role options) := by
  rw [effectiveEnvRules, extraRules, ← ContainerKind.extraRules_ofRole]
  rfl

theorem extraRules_subset : extraRules c role options ⊆ role.injectedRules := by
  unfold extraRules
  split
  · exact List.nil_subset _
  · exact List.Subset.refl _

end

/-- The record of a container with a role, beside its record without one. -/
structure AddsInjected (raw : Json) (role : Role) (plain record : Json) : Prop where
  others : record.withoutInjected = plain.withoutInjected
  envRules : ∃ declared added : List EnvRule,
    List.Forall₂ EnvRule.Declared (raw.fieldItems "environmentVariables") declared ∧
    plain.recordItems "env_rules" = declared.map EnvRule.toJson ∧
    record.recordItems "env_rules" = (declared ++ added).map EnvRule.toJson ∧
    added ⊆ role.injectedRules ∧ (∀ r ∈ added, r.name ∉ EnvRule.names declared) ∧
    (EnvRule.names added).Nodup
  mounts : plain.recordItems "mounts" <+: record.recordItems "mounts"
  execProcesses : plain.recordItems "exec_processes" <+: record.recordItems "exec_processes"

/-- A record that keeps the rules of another one in front and its mounts in order. -/
structure Grows (small large : Json) : Prop where
  envRules : small.recordItems "env_rules" <+: large.recordItems "env_rules"
  mounts : (small.recordItems "mounts").Sublist (large.recordItems "mounts")

theorem AsDeclared.addsInjected {raw : Json} {usual : Bool} (h : AsDeclared raw usual c)
    (role : Role) (options : Options) (omitId : Bool) :
    AddsInjected raw role (c.record omitId) ((c.withRole role options).record omitId) where
  others := withoutInjected_withRole c role options omitId
  envRules := by
    let added := EnvRule.unclaimed c.envRules (extraRules c role options)
    refine ⟨c.envRules, added, h.envRules, ?_, ?_, ?_, ?_, ?_⟩
    · rw [recordItems_envRules, effectiveEnvRules, h.kind]
      rfl
    · rw [recordItems_envRules, effectiveEnvRules_withRole, EnvRule.merge_eq_append]
    · intro r hr
      exact extraRules_subset c role options (EnvRule.mem_of_mem_unclaimed hr).1
    · intro r hr
      exact (EnvRule.mem_of_mem_unclaimed hr).2
    · exact EnvRule.nodup_names_unclaimed _ _
  mounts := by
    rw [recordItems_mounts_withRole]
    exact List.prefix_append _ _
  execProcesses := execProcesses_prefix c role options omitId

theorem grows_withRole (c : Container) (options : Options)
    (privileged workloadIdentity p w omitId : Bool) :
    Grows ((c.withRole (.virtualNode privileged workloadIdentity) options).record omitId)
      ((c.withRole (.virtualNode (privileged || p) (workloadIdentity || w)) options).record
        omitId) where
  envRules := by
    rw [recordItems_envRules, recordItems_envRules, effectiveEnvRules_withRole,
      effectiveEnvRules_withRole]
    refine (EnvRule.merge_prefix_merge ?_).map _
    unfold extraRules
    split
    · exact List.prefix_rfl
    · exact Role.injectedRules_prefix privileged workloadIdentity p w
  mounts := by
    rw [recordItems_mounts_withRole, recordItems_mounts_withRole]
    refine (List.Sublist.refl _).append (List.Sublist.map _ (List.Sublist.map _ ?_))
    rw [List.nil_append, List.nil_append]
    split
    · exact List.Sublist.refl _
    · exact Role.mounts_sublist privileged workloadIdentity p w

/-- Roles only add. A description is refused with the same error whatever the role is, or its record
with a role has what the record without one has, in front of what the role injects under new names.
A virtual node with more flags keeps the rules in front and the mounts in order. -/
theorem agree_ofSpec_roles (raw : Json) (options : Options) :
    (∀ role, Agree
      (fun c d ↦ ∀ omitId, AddsInjected raw role (c.record omitId) (d.record omitId))
      (ofSpec raw .plain options) (ofSpec raw role options)) ∧
    ∀ privileged workloadIdentity p w, Agree
      (fun c d ↦ ∀ omitId, Grows (c.record omitId) (d.record omitId))
      (ofSpec raw (.virtualNode privileged workloadIdentity) options)
      (ofSpec raw (.virtualNode (privileged || p) (workloadIdentity || w)) options) := by
  constructor
  · intro role
    rw [ofSpec_eq_map raw role]
    cases hplain : ofSpec raw .plain options with
    | error e => exact .error e
    | ok c => exact .ok ((asDeclared_of_ofSpec hplain).addsInjected role options)
  · intro privileged workloadIdentity p w
    rw [ofSpec_eq_map raw (.virtualNode privileged workloadIdentity),
      ofSpec_eq_map raw (.virtualNode (privileged || p) (workloadIdentity || w))]
    cases ofSpec raw .plain options with
    | error e => exact .error e
    | ok c => exact .ok (grows_withRole c options privileged workloadIdentity p w)

end Container

end ConfidentialPolicy

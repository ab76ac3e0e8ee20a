import ConfidentialPolicy.Proofs.Container.Injection

namespace ConfidentialPolicy

open Json Checked

variable {raw : Json} {role : Role} {options : Options} {c : Container} {m : Mount}

/-- How a policy lists a mount whose description gives some options. -/
structure Mount.Listed (given : List Json) (m : Mount) (listed : Json) : Prop where
  verbatim : given ≠ [] → listed.recordItems "options" = given
  usual : given = [] → listed.recordItems "options" =
    [.str "rbind", .str "rshared", .str (if m.readonly then "ro" else "rw")]
  readonly : given = [] → m.readonly = true →
    .str "ro" ∈ listed.recordItems "options" ∧ .str "rw" ∉ listed.recordItems "options"

theorem Mount.recordItems_options (m : Mount) :
    m.toJson.recordItems "options" = m.options.map .str := by
  have hget : m.toJson.get? "options" = some (.ofStrings m.options) :=
    KeyMap.get?_ofList_of_unique (by simp) (by simp)
  rw [recordItems, hget]
  rfl

theorem MountSpec.listed_build {s : MountSpec} (h : s.options ≠ some []) :
    s.build.Listed ((s.options.getD []).map .str) s.build.toJson := by
  have hlisted : s.build.toJson.recordItems "options" =
      (s.options.getD (defaultOptions s.readonly)).map .str :=
    Mount.recordItems_options s.build
  cases hoptions : s.options with
  | none =>
    rw [hoptions] at hlisted
    refine ⟨fun hne ↦ absurd rfl hne, fun _ ↦ hlisted, fun _ hreadonly ↦ ?_⟩
    have hro : s.readonly = true := hreadonly
    simp [hlisted, defaultOptions, hro]
  | some own =>
    rw [hoptions] at hlisted
    have hne : own.map Json.str ≠ [] := by
      intro hnil
      exact h (hoptions.trans (congrArg some (List.map_eq_nil_iff.mp hnil)))
    exact ⟨fun _ ↦ hlisted, fun hnil ↦ absurd hnil hne, fun hnil ↦ absurd hnil hne⟩

theorem Role.options_mounts (role : Role) : ∀ s ∈ role.mounts, s.options = none := by
  cases role with
  | plain => exact List.forall_mem_nil _
  | user => decide
  | virtualNode privileged workloadIdentity =>
    cases privileged <;> cases workloadIdentity <;> decide

theorem Json.fieldItems_eq_of_getD {key : String} {items : List Json}
    (h : (raw.field? key).getD (.arr []) = .arr items) : raw.fieldItems key = items := by
  unfold fieldItems
  cases hfield : raw.field? key with
  | none =>
    rw [hfield] at h
    cases h
    rfl
  | some v =>
    rw [hfield] at h
    obtain rfl : v = .arr items := h
    rfl

namespace Container

/-- What describes the mount of a container at a place, and the options that it gives: an item of
the container's description, which also says whether the mount is read-only, or the role. -/
inductive MountOrigin (raw : Json) (role : Role) (n : Nat) (m : Mount) : List Json → Prop
  | declared {item : Json} (hitem : (raw.fieldItems "mounts")[n]? = some item)
      (hreadonly : (item.field? "readonly").getD (.bool false) = .bool m.readonly) :
      MountOrigin raw role n m (item.fieldItems "options")
  | injected {s : MountSpec} (hnone : (raw.fieldItems "mounts")[n]? = none)
      (hs : s ∈ role.mounts) (hbuild : s.build = m) : MountOrigin raw role n m []

theorem exists_mountSpecs (h : ofSpec raw role options = .ok c) : ∃ declared injected,
    List.Forall₂ MountSpec.Declared (raw.fieldItems "mounts") declared ∧ injected ⊆ role.mounts ∧
    c.mounts = (declared ++ injected).map MountSpec.build := by
  rw [ofSpec_eq_map raw role] at h
  cases hplain : ofSpec raw .plain options with
  | error e =>
    rw [hplain] at h
    cases h
  | ok bare =>
    rw [hplain] at h
    cases h
    obtain ⟨declared, hdeclared, hmounts⟩ := (asDeclared_of_ofSpec hplain).mounts
    refine ⟨declared, if options.sidecars.isSidecar bare.image then [] else role.mounts, hdeclared,
      ?_, ?_⟩
    · split
      · exact List.nil_subset _
      · exact List.Subset.refl _
    · rw [List.map_append, ← hmounts]
      rfl

/-- The place of a mount tells whether it was declared. -/
theorem exists_origin {declared injected : List MountSpec}
    (hdeclared : List.Forall₂ MountSpec.Declared (raw.fieldItems "mounts") declared)
    (hinjected : injected ⊆ role.mounts) {n : Nat} {s : MountSpec}
    (hs : (declared ++ injected)[n]? = some s) :
    s.options ≠ some [] ∧ MountOrigin raw role n s.build ((s.options.getD []).map .str) := by
  have hlength := hdeclared.length_eq
  rcases Nat.lt_or_ge n declared.length with hlt | hge
  · rw [List.getElem?_append_left hlt, List.getElem?_eq_getElem hlt] at hs
    cases hs
    have hitem : n < (raw.fieldItems "mounts").length := hlength ▸ hlt
    have h : MountSpec.Declared (raw.fieldItems "mounts")[n] declared[n] :=
      (List.forall₂_iff_get.mp hdeclared).2 n hitem hlt
    refine ⟨h.options_ne, ?_⟩
    rw [← Json.fieldItems_eq_of_getD h.options]
    exact .declared (List.getElem?_eq_getElem hitem) h.readonly
  · rw [List.getElem?_append_right hge] at hs
    have hrole := hinjected (List.mem_of_getElem? hs)
    rw [Role.options_mounts role s hrole]
    exact ⟨nofun, .injected (List.getElem?_eq_none (hlength ▸ hge)) hrole rfl⟩

/-- A policy lists every mount of a container at its place. One that is described without options
has the usual three: a read-only one is listed with `ro` and not with `rw`. -/
theorem listed_mounts (h : ofSpec raw role options = .ok c) (omitId : Bool) :
    ((c.record omitId).recordItems "mounts").length = c.mounts.length ∧
    ∀ n m, c.mounts[n]? = some m → ∃ given listed, MountOrigin raw role n m given ∧
      ((c.record omitId).recordItems "mounts")[n]? = some listed ∧ m.Listed given listed := by
  obtain ⟨declared, injected, hdeclared, hinjected, hmounts⟩ := exists_mountSpecs h
  rw [recordItems_mounts]
  refine ⟨List.length_map _, fun n m hm ↦ ?_⟩
  have hlisted : (c.mounts.map Mount.toJson)[n]? = some m.toJson := by
    rw [List.getElem?_map, hm, Option.map_some]
  rw [hmounts, List.getElem?_map] at hm
  obtain ⟨s, hs, rfl⟩ := Option.map_eq_some_iff.mp hm
  obtain ⟨hne, horigin⟩ := exists_origin hdeclared hinjected hs
  exact ⟨_, _, horigin, hlisted, MountSpec.listed_build hne⟩

def nodeDescription : Json := .obj [
  ("environmentVariables", .arr []),
  ("image", .str "node:1"),
  ("mounts", .arr [
    .obj [("options", .arr []), ("path", .str "/a"), ("readOnly", .bool true),
      ("type", .str "secret")],
    .obj [("options", .ofStrings ["rbind", "rshared", "rw"]), ("path", .str "/b"),
      ("readonly", .bool true), ("type", .str "azureFile")]])]

theorem listed_mounts_nodeDescription : ∃ c,
    ofSpec nodeDescription (.virtualNode true true) {} = .ok c ∧ c.mounts.length = 10 ∧
    ∀ n m, c.mounts[n]? = some m → ∃ given listed,
      MountOrigin nodeDescription (.virtualNode true true) n m given ∧
      ((c.record true).recordItems "mounts")[n]? = some listed ∧ m.Listed given listed := by
  obtain ⟨c, hc, hlength⟩ : ∃ c, ofSpec nodeDescription (.virtualNode true true) {} = .ok c ∧
      c.mounts.length = 10 := by decide +kernel
  exact ⟨c, hc, hlength, (listed_mounts hc true).2⟩

/-- A read-only mount is listed with `rw` and without `ro` if its description says so. -/
theorem exists_writable_readonly : ∃ c m listed,
    ofSpec nodeDescription .user {} = .ok c ∧ c.mounts[1]? = some m ∧ m.readonly = true ∧
    ((c.record false).recordItems "mounts")[1]? = some listed ∧
    .str "rw" ∈ listed.recordItems "options" ∧ .str "ro" ∉ listed.recordItems "options" :=
  ⟨_, _, _, rfl, rfl, rfl, rfl, by decide +kernel, by decide +kernel⟩

end Container

end ConfidentialPolicy

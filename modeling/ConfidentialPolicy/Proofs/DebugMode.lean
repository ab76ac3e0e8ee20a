import ConfidentialPolicy.Proofs.Compile
import ConfidentialPolicy.Proofs.Fields

namespace ConfidentialPolicy

open Checked

inductive Aligned {α β γ : Type} (R : α → β → γ → Prop) : List α → List β → List γ → Prop
  | nil : Aligned R [] [] []
  | cons {a : α} {b : β} {c : γ} {as : List α} {bs : List β} {cs : List γ} (h : R a b c)
      (rest : Aligned R as bs cs) : Aligned R (a :: as) (b :: bs) (c :: cs)

namespace Aligned

variable {α β γ δ ε : Type} {R : α → β → γ → Prop} {S : α → δ → ε → Prop} {as : List α}
  {bs : List β} {cs : List γ}

theorem agree_mapM_self {f : α → Checked β} {g : α → Checked γ}
    (h : ∀ a, Agree (R a) (f a) (g a)) (as : List α) :
    Agree (Aligned R as) (as.mapM f) (as.mapM g) := by
  induction as with
  | nil => exact .ok .nil
  | cons a as ih =>
    rw [List.mapM_cons, List.mapM_cons]
    refine (h a).bind fun b c hbc ↦ ?_
    refine ih.bind fun bs cs hrest ↦ ?_
    exact .ok (.cons hbc hrest)

theorem agree_mapM (h : Aligned R as bs cs) {f : β → Checked δ} {g : γ → Checked ε}
    (hfg : ∀ a b c, R a b c → Agree (S a) (f b) (g c)) :
    Agree (Aligned S as) (bs.mapM f) (cs.mapM g) := by
  induction h with
  | nil => exact .ok .nil
  | @cons a b c as bs cs hbc _ ih =>
    rw [List.mapM_cons, List.mapM_cons]
    refine (hfg a b c hbc).bind fun x y hxy ↦ ?_
    refine ih.bind fun xs ys hrest ↦ ?_
    exact .ok (.cons hxy hrest)

theorem forall₂ (h : Aligned R as bs cs) {T : β → γ → Prop} (hT : ∀ a b c, R a b c → T b c) :
    List.Forall₂ T bs cs := by
  induction h with
  | nil => exact .nil
  | cons hbc _ ih => exact .cons (hT _ _ _ hbc) ih

theorem filter (h : Aligned R as bs cs) {p : β → Bool} {q : γ → Bool}
    (hpq : ∀ a b c, R a b c → p b = q c) :
    ∃ some : List α, some.Sublist as ∧ Aligned R some (bs.filter p) (cs.filter q) := by
  induction h with
  | nil => exact ⟨[], .slnil, .nil⟩
  | @cons a b c as bs cs hbc _ ih =>
    obtain ⟨rest, hsub, hrest⟩ := ih
    rw [List.filter_cons, List.filter_cons, hpq a b c hbc]
    split
    · exact ⟨a :: rest, hsub.cons_cons a, .cons hbc hrest⟩
    · exact ⟨rest, hsub.cons a, hrest⟩

end Aligned

theorem Fields.members?_of_ofJson {raw : Json} {path : String} {fields : Fields}
    (h : Fields.ofJson raw path = .ok fields) : raw.members? = some fields.members := by
  unfold Fields.ofJson at h
  split at h
  · cases h
    rfl
  · cases h

namespace ExecProcess

def declaresStdio (raw : Json) : Bool :=
  raw.members?.any fun ms ↦ (Fields.mk ms).contains "allowStdioAccess"

inductive Opened (raw : Json) : ExecProcess → ExecProcess → Prop
  | declared (p : ExecProcess) (h : declaresStdio raw = true) : Opened raw p p
  | opened (command : List String) (signals : List Int) (h : declaresStdio raw = false) :
      Opened raw ⟨command, signals, false⟩ ⟨command, signals, true⟩

theorem opened_of_bool {raw : Json} {own : Option Bool} (h : declaresStdio raw = own.isSome)
    (command : List String) (signals : List Int) :
    Opened raw ⟨command, signals, own.getD false⟩ ⟨command, signals, own.getD true⟩ := by
  cases own with
  | none => exact .opened command signals h
  | some stdio => exact .declared _ h

theorem agree_ofJson (raw : Json) : Agree (Opened raw) (ofJson raw false) (ofJson raw true) := by
  unfold ofJson
  refine agree_bind_eq_ok rfl fun fields hfields ↦ ?_
  refine agree_bind_of_eq rfl fun command ↦ ?_
  cases command with
  | none => exact .error _
  | some command =>
    refine agree_bind_of_eq rfl fun signals ↦ ?_
    refine agree_bind_eq_ok rfl fun own hown ↦ ?_
    have hdeclares : declaresStdio raw = own.isSome := by
      rw [declaresStdio, Fields.members?_of_ofJson hfields, Option.any_some, Fields.contains]
      rcases Fields.read_eq_ok hown with ⟨hv, rfl⟩ | ⟨v, stdio, hv, -, rfl⟩ <;> rw [hv] <;> rfl
    exact .ok (opened_of_bool hdeclares command (signals.getD []))

end ExecProcess

namespace Container

def processItems (raw : Json) : List Json :=
  ((raw.members?.bind fun ms ↦ (Fields.mk ms).get? "execProcesses").bind Json.items?).getD []

/-- A described container with debug mode off and on: nothing but the processes differs. -/
structure InDebugMode (table : SidecarTable) (spec : ContainerInput) (c d : Container) :
    Prop where
  others : d = { c with execProcesses := d.execProcesses }
  sidecar : table.isSidecar c.image = true → d.execProcesses = c.execProcesses
  /-- Unless the image is a sidecar, processes get the standard streams where their descriptions do
  not say so, and there is a shell unless nothing is injected. -/
  processes : table.isSidecar c.image = false → ∃ opened,
    Aligned ExecProcess.Opened (processItems spec.raw) c.execProcesses opened ∧
      d.execProcesses = opened ++ if spec.role = .plain then [] else [ExecProcess.shell]

theorem agree_execProcessesOf {raw : Json} {fields : Fields} {path : String}
    (h : Fields.ofJson raw path = .ok fields) :
    Agree (Aligned ExecProcess.Opened (processItems raw)) (execProcessesOf fields false)
      (execProcessesOf fields true) := by
  refine agree_bind_eq_ok rfl fun items hitems ↦ ?_
  have hitems : items.getD [] = processItems raw := by
    rw [processItems, Fields.members?_of_ofJson h, Option.bind_some]
    rcases Fields.read_eq_ok hitems with ⟨hv, rfl⟩ | ⟨v, vs, hv, hvs, rfl⟩ <;> rw [hv]
    · rfl
    · rw [Option.bind_some, hvs]
  rw [hitems]
  exact Aligned.agree_mapM_self ExecProcess.agree_ofJson _

theorem isUser_ofRole (role : Role) (isSidecar : Bool) :
    (ContainerKind.ofRole role isSidecar).isUser = (!isSidecar && role ≠ .plain) := by
  cases isSidecar <;> cases role <;> rfl

theorem agree_ofSpec (options : Options) (spec : ContainerInput) :
    Agree (InDebugMode options.sidecars spec)
      (ofSpec spec.raw spec.role { options with debugMode := false })
      (ofSpec spec.raw spec.role { options with debugMode := true }) := by
  refine agree_bind_eq_ok rfl fun fields hfields ↦ ?_
  refine agree_bind_of_eq rfl fun image ↦ ?_
  refine agree_bind_of_eq rfl fun id ↦ ?_
  refine agree_bind_of_eq rfl fun envRules ↦ ?_
  refine agree_bind_of_eq rfl fun command ↦ ?_
  refine agree_bind_of_eq rfl fun workingDir ↦ ?_
  refine agree_bind_of_eq rfl fun mounts ↦ ?_
  refine agree_bind_of_eq rfl fun elevated ↦ ?_
  -- Debug mode is asked for twice, for the processes and for the shell; a sidecar ignores both.
  simp only [isUser_ofRole, Bool.or_false, Bool.or_true, Bool.false_and, Bool.true_and]
  cases hsidecar : options.sidecars.isSidecar image with
  | true =>
    refine agree_bind_of_eq rfl fun processes ↦ ?_
    refine agree_bind_of_eq rfl fun signals ↦ ?_
    refine agree_bind_of_eq rfl fun stdio ↦ .ok ⟨rfl, fun _ ↦ rfl, fun h ↦ ?_⟩
    cases hsidecar.symm.trans h
  | false =>
    refine (agree_execProcessesOf hfields).bind fun ps qs hpq ↦ ?_
    refine agree_bind_of_eq rfl fun signals ↦ ?_
    refine agree_bind_of_eq rfl fun stdio ↦ .ok ⟨rfl, fun h ↦ ?_, fun _ ↦ ⟨qs, ?_, ?_⟩⟩
    · cases hsidecar.symm.trans h
    · simpa using hpq
    · cases spec.role <;> rfl

/-- What is in a document for a description with debug mode off and on. -/
structure DebugTwin (options : Options) (spec : ContainerInput) (c d : Container) : Prop extends
    InDebugMode options.sidecars spec c d where
  built : ∃ b, ofSpec spec.raw spec.role { options with debugMode := false } = .ok b ∧
    c = b.withLayers c.layers

theorem agree_debugTwin (options : Options) (spec : ContainerInput) :
    Agree (DebugTwin options spec)
      (ofSpec spec.raw spec.role { options with debugMode := false })
      (ofSpec spec.raw spec.role { options with debugMode := true }) :=
  (agree_ofSpec options spec).with_left.imp fun c _ ⟨hc, h⟩ ↦ ⟨h, c, hc, rfl⟩

section

variable {options : Options} {spec : ContainerInput} {c d : Container}
  (h : DebugTwin options spec c d)

include h

theorem DebugTwin.withLayers (layers : List String) :
    DebugTwin options spec (c.withLayers layers) (d.withLayers layers) where
  others := congrArg (Container.withLayers · layers) h.others
  sidecar := h.sidecar
  processes := h.processes
  built := by
    obtain ⟨b, hb, hc⟩ := h.built
    refine ⟨b, hb, ?_⟩
    rw [hc]
    rfl

theorem DebugTwin.id_eq : c.id = d.id := by
  rw [h.others]

theorem DebugTwin.image_eq : c.image = d.image := by
  rw [h.others]

theorem DebugTwin.erase_record (omitId : Bool) :
    (d.record omitId).erase "exec_processes" = (c.record omitId).erase "exec_processes" := by
  rw [h.others]
  cases omitId <;> by_cases hmounts : c.mounts = [] <;>
    simp [record, members, Json.erase, KeyMap.erase, hmounts, effectiveEnvRules]

end

end Container

namespace Resolution

/-- What fragments cover depends on the images and on the ids of the containers alone. -/
theorem resolve_eq_of_images (d : Discovery) (imports : List FragmentImport)
    {cs ds : List Container} (h : Container.images cs = Container.images ds) :
    resolve d ds imports =
      let r := resolve d cs imports
      let ids := r.fragmentContainers.filterMap recordId?
      { r with inline := ds.filter (·.id ∉ ids), covered := ds.filter (·.id ∈ ids) } := by
  simp only [resolve, h]

end Resolution

def DebugTwins (options : Options) (input : PolicyInput) (cs ds : List Container) : Prop :=
  ∃ specs, specs.Sublist input.containers ∧ Aligned (Container.DebugTwin options) specs cs ds

structure Resolution.DebugTwin (options : Options) (input : PolicyInput) (r d : Resolution) :
    Prop where
  inline : DebugTwins options input r.inline d.inline
  covered : DebugTwins options input r.covered d.covered
  fragmentContainers : d.fragmentContainers = r.fragmentContainers
  decisions : d.decisions = r.decisions
  calls : d.calls = r.calls

structure Compiler.Compilation.DebugTwin (options : Options) (input : PolicyInput)
    (r d : Compilation) : Prop where
  fragments : d.document.fragments = r.document.fragments
  pause : d.document.pause = r.document.pause
  containers : DebugTwins options input r.document.containers d.document.containers
  resolution : Option.Rel (Resolution.DebugTwin options input) r.resolution d.resolution
  records : ∀ omitId, List.Forall₂
    (fun x y ↦ y.erase "exec_processes" = x.erase "exec_processes")
    (r.document.records omitId) (d.document.records omitId)

section Twins

variable {options : Options} {input : PolicyInput} {cs ds : List Container}

theorem DebugTwins.filter (h : DebugTwins options input cs ds) (p : String → Bool) :
    DebugTwins options input (cs.filter (p ·.id)) (ds.filter (p ·.id)) := by
  obtain ⟨specs, hsub, h⟩ := h
  obtain ⟨some, hsome, h⟩ := h.filter fun spec c d hcd ↦ congrArg p hcd.id_eq
  exact ⟨some, hsome.trans hsub, h⟩

theorem DebugTwins.images_eq (h : DebugTwins options input cs ds) :
    Container.images cs = Container.images ds := by
  obtain ⟨specs, -, h⟩ := h
  have himages : List.Forall₂ (fun c d : Container ↦ c.image = d.image) cs ds :=
    h.forall₂ fun spec c d hcd ↦ hcd.image_eq
  have hmap : cs.map (·.image) = ds.map (·.image) :=
    List.forall₂_eq_eq_eq ▸ List.forall₂_map_left_iff.mpr (List.forall₂_map_right_iff.mpr himages)
  rw [Container.images, Container.images, hmap]

theorem DebugTwins.resolve (h : DebugTwins options input cs ds) (d : Discovery)
    (imports : List FragmentImport) :
    Resolution.DebugTwin options input (Resolution.resolve d cs imports)
      (Resolution.resolve d ds imports) := by
  rw [Resolution.resolve_eq_of_images d imports h.images_eq]
  let ids := (Resolution.resolve d cs imports).fragmentContainers.filterMap recordId?
  exact ⟨h.filter fun id ↦ decide (id ∉ ids), h.filter fun id ↦ decide (id ∈ ids), rfl, rfl, rfl⟩

theorem DebugTwins.agree_mapM (h : DebugTwins options input cs ds)
    {f : Container → Checked Container}
    (hf : ∀ spec c d, Container.DebugTwin options spec c d →
      Agree (Container.DebugTwin options spec) (f c) (f d)) :
    Agree (DebugTwins options input) (cs.mapM f) (ds.mapM f) := by
  obtain ⟨specs, hsub, h⟩ := h
  exact (h.agree_mapM hf).imp fun xs ys hxy ↦ ⟨specs, hsub, hxy⟩

theorem DebugTwins.records (h : DebugTwins options input cs ds) (imports : List FragmentImport)
    (omitId : Bool) : List.Forall₂
      (fun x y ↦ y.erase "exec_processes" = x.erase "exec_processes")
      ((Document.mk cs imports none).withPause.records omitId)
      ((Document.mk ds imports none).withPause.records omitId) := by
  obtain ⟨specs, -, h⟩ := h
  have hrecords := h.forall₂ fun spec c d hcd ↦ hcd.erase_record omitId
  refine List.rel_append ?_ (.cons rfl .nil)
  exact List.forall₂_map_left_iff.mpr (List.forall₂_map_right_iff.mpr hrecords)

end Twins

namespace Compiler

def withDebugMode (k : Compiler) (debugMode : Bool) : Compiler :=
  { k with options := { k.options with debugMode } }

theorem agree_populate (k : Compiler) {options : Options} (spec : ContainerInput)
    (c d : Container) (h : c.DebugTwin options spec d) :
    Agree (Container.DebugTwin options spec) (k.populate c) (k.populate d) := by
  unfold populate
  cases k.layers with
  | none => exact .ok h
  | some lookup =>
    simp only [layered, ← h.image_eq]
    cases lookup c.image with
    | error e => exact .error _
    | ok layers => exact .ok (h.withLayers layers)

theorem agree_buildContainers (k : Compiler) (input : PolicyInput) :
    Agree (DebugTwins k.options input) ((k.withDebugMode false).buildContainers input)
      ((k.withDebugMode true).buildContainers input) := by
  have h := Aligned.agree_mapM_self (Container.agree_debugTwin k.options) input.containers
  exact h.imp fun cs ds hcd ↦ ⟨input.containers, .refl _, hcd⟩

theorem debugTwins_leftOver (k : Compiler) {options : Options} {input : PolicyInput}
    {cs ds : List Container} (h : DebugTwins options input cs ds) (imports : List FragmentImport) :
    DebugTwins options input (k.leftOver cs imports) (k.leftOver ds imports) := by
  unfold leftOver resolution?
  cases k.discovery with
  | none => exact h
  | some d => exact (h.resolve d imports).inline

theorem rel_resolution? (k : Compiler) {options : Options} {input : PolicyInput}
    {cs ds : List Container} (h : DebugTwins options input cs ds) (imports : List FragmentImport) :
    Option.Rel (Resolution.DebugTwin options input) (k.resolution? cs imports)
      (k.resolution? ds imports) := by
  unfold resolution?
  cases k.discovery with
  | none => exact .none
  | some d => exact .some (h.resolve d imports)

def twoProcesses : PolicyInput where
  version := none
  containers := [⟨none, .obj [("environmentVariables", .arr []),
    ("execProcesses", .arr [.obj [("command", .ofStrings ["ready"])],
      .obj [("allowStdioAccess", .bool false), ("command", .ofStrings ["live"])]]),
    ("image", .str "web")], .user⟩]
  fragments := none

example : ((Compiler.mk {} none none).withDebugMode true |>.compile twoProcesses).map
    (·.document.containers.map (·.execProcesses)) =
      .ok [[⟨["ready"], [], true⟩, ⟨["live"], [], false⟩, ExecProcess.shell]] :=
  rfl

end Compiler

end ConfidentialPolicy

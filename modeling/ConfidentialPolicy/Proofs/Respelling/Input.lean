import ConfidentialPolicy.Compile
import ConfidentialPolicy.Proofs.Respelling.Fields

namespace ConfidentialPolicy

open Json Checked

namespace Shape

def flat : Shape := .object true fun _ ↦ .exact

def propertiesField : String → Shape
  | "securitycontext" => flat
  | "environmentvariables" | "volumemounts" | "execprocesses" => .list flat
  | _ => .exact

def containerField : String → Shape
  | "properties" => .object true propertiesField
  | _ => .exact

def fragmentImport : Shape := .object false fun _ ↦ .exact

def inputField : String → Shape
  | "containers" => .list (.object true containerField)
  | "fragments" => .list fragmentImport
  | _ => .exact

def input : Shape := .object true inputField

/-- The fields of the description of a container: only processes are still to be read. -/
def specField : String → Shape
  | "execprocesses" => .list flat
  | _ => .exact

end Shape

variable {v w : Json} {f g : Fields}

theorem Fields.get?_eq_of_flat (h : Fields.Agree (fun _ ↦ .exact) f g) : f.get? = g.get? :=
  funext fun _ ↦ h.get?_eq rfl

def SameField (field : String → Shape) (a b : String × Option Json) : Prop :=
  a.1 = b.1 ∧ Option.Rel (Respelled (field (Text.lower a.1))) a.2 b.2

theorem sameField_refl {field : String → Shape} {key : String}
    (hfield : field (Text.lower key) = .exact) (o : Option Json) :
    SameField field (key, o) (key, o) := by
  refine ⟨rfl, ?_⟩
  rw [hfield]
  cases o with
  | none => exact .none
  | some v => exact .some rfl

theorem SameField.forall₂_present {field : String → Shape} {as bs : List (String × Option Json)}
    (h : List.Forall₂ (SameField field) as bs) :
    List.Forall₂ (Paired field) (PolicyInput.present as) (PolicyInput.present bs) := by
  induction h with
  | nil => exact .nil
  | @cons a b as bs hab _ ih =>
    obtain ⟨k, o⟩ := a
    obtain ⟨k', p⟩ := b
    obtain ⟨rfl, hop⟩ := hab
    cases hop with
    | none => exact ih
    | some hvw => exact .cons ⟨rfl, hvw⟩ ih

def SpecAgree (v w : Json) : Prop :=
  ∃ ms ns, v = .obj ms ∧ w = .obj ns ∧ Fields.Agree Shape.specField ⟨ms⟩ ⟨ns⟩

theorem ExecProcess.ofJson_congr (h : Respelled Shape.flat v w) (stdio : Bool) :
    ofJson v stdio = ofJson w stdio := by
  refine (Fields.agree_ofJson h _).bind_eq fun f g hfg ↦ ?_
  have hget := congrFun (Fields.get?_eq_of_flat hfg)
  simp only [Fields.strings_congr (hget _), Fields.ints_congr (hget _), Fields.bool_congr (hget _)]

theorem forall₂_getD {α β : Type} {r : α → β → Prop} {o : Option (List α)} {p : Option (List β)}
    (h : Option.Rel (List.Forall₂ r) o p) : List.Forall₂ r (o.getD []) (p.getD []) := by
  cases h with
  | none => exact .nil
  | some h => exact h

namespace Container

variable (h : Fields.Agree Shape.specField f g)

include h

theorem imageOf_congr : imageOf f = imageOf g := by
  have hlong : f.get? "containerImage" = g.get? "containerImage" := h.get?_eq rfl
  have hshort : f.get? "image" = g.get? "image" := h.get?_eq rfl
  have himage : f.getAny? ["containerImage", "image"] = g.getAny? ["containerImage", "image"] := by
    simp only [Fields.getAny?, List.findSome?_cons, List.findSome?_nil, hlong, hshort]
  simp only [imageOf, himage]

theorem execProcessesOf_congr (stdio : Bool) : execProcessesOf f stdio = execProcessesOf g stdio :=
  (h.list rfl _).bind_eq fun _ _ hitems ↦
    mapM_congr (forall₂_getD hitems) fun _ _ hvw ↦ ExecProcess.ofJson_congr hvw stdio

end Container

theorem Container.ofSpec_congr (h : SpecAgree v w) (role : Role) (options : Options) :
    ofSpec v role options = ofSpec w role options := by
  obtain ⟨ms, ns, rfl, rfl, h⟩ := h
  refine (Checked.Agree.ok h).bind_eq fun f g h ↦ ?_
  have hid : f.get? "id" = g.get? "id" := h.get?_eq rfl
  have henv : f.get? "environmentVariables" = g.get? "environmentVariables" := h.get?_eq rfl
  have hcommand : f.get? "command" = g.get? "command" := h.get?_eq rfl
  have hdir : f.get? "workingDir" = g.get? "workingDir" := h.get?_eq rfl
  have hmounts : f.get? "mounts" = g.get? "mounts" := h.get?_eq rfl
  have helevated : f.get? "allowElevated" = g.get? "allowElevated" := h.get?_eq rfl
  have hsignals : f.get? "signals" = g.get? "signals" := h.get?_eq rfl
  have hstdio : f.get? "allowStdioAccess" = g.get? "allowStdioAccess" := h.get?_eq rfl
  simp only [envRulesOf, commandOf, workingDirOf, mountsOf, imageOf_congr h,
    execProcessesOf_congr h, Fields.string_congr hid, Fields.list_congr henv,
    Fields.strings_congr hcommand, Fields.string_congr hdir, Fields.list_congr hmounts,
    Fields.bool_congr helevated, Fields.ints_congr hsignals, Fields.bool_congr hstdio]

theorem FragmentImport.ofJson_congr (h : Respelled Shape.fragmentImport v w) :
    ofJson v = ofJson w := by
  obtain ⟨ms, ns, rfl, rfl, hms, h⟩ | ⟨rfl, -⟩ := h.object_cases
  · have hfind : Fields.find? ⟨ms⟩ = Fields.find? ⟨ns⟩ :=
      funext fun key ↦ eq_of_rel_exact (h.rel_find? hms key)
    simp only [ofJson, record?, hfind]
  · rfl

structure ContainerInput.Agree (c d : ContainerInput) : Prop where
  name : c.name = d.name
  role : c.role = d.role
  raw : SpecAgree c.raw d.raw

namespace PolicyInput

theorem environmentVariable_congr (h : Respelled Shape.flat v w) :
    environmentVariable v = environmentVariable w := by
  refine (Fields.agree_ofJson h _).bind_eq fun f g hfg ↦ ?_
  have hget := congrFun (Fields.get?_eq_of_flat hfg)
  simp only [Fields.string_congr (hget _), Fields.bool_congr (hget _), hget]

theorem mount_congr (h : Respelled Shape.flat v w) : mount v = mount w := by
  refine (Fields.agree_ofJson h _).bind_eq fun f g hfg ↦ ?_
  have hget := Fields.get?_eq_of_flat hfg
  simp only [Fields.getAny?, hget]

theorem security_congr (h : Fields.Agree Shape.propertiesField f g) : security f = security g := by
  refine (h.object rfl _).bind_eq fun o p hop ↦ ?_
  cases hop with
  | none => rfl
  | some hcontext =>
    have hget := congrFun (Fields.get?_eq_of_flat hcontext)
    simp only [Fields.bool_congr (hget _)]

theorem mounts_congr {o p : Option (List Json)}
    (h : Option.Rel (List.Forall₂ (Respelled Shape.flat)) o p) :
    o.mapM (fun ms ↦ ms.mapM mount) = p.mapM fun ms ↦ ms.mapM mount := by
  cases h with
  | none => rfl
  | some h => simp only [Option.mapM_some, mapM_congr h fun _ _ ↦ mount_congr]

theorem rel_copied (h : Fields.Agree Shape.propertiesField f g) : ∀ key ∈ copied,
    Option.Rel (Respelled (Shape.specField (Text.lower key))) (f.get? key) (g.get? key) := by
  intro key hkey
  have hfield : Shape.propertiesField (Text.lower key) = Shape.specField (Text.lower key) := by
    simp only [copied, List.mem_cons, List.not_mem_nil, or_false] at hkey
    rcases hkey with rfl | rfl | rfl | rfl | rfl <;> rfl
  exact hfield ▸ h key

theorem forall₂_copied (h : Fields.Agree Shape.propertiesField f g) :
    List.Forall₂ (SameField Shape.specField) (copied.map fun key ↦ (key, f.get? key))
      (copied.map fun key ↦ (key, g.get? key)) := by
  rw [List.forall₂_map_left_iff, List.forall₂_map_right_iff, List.forall₂_same]
  exact fun key hkey ↦ ⟨rfl, rel_copied h key hkey⟩

theorem imports_congr {o p : Option (List Json)}
    (h : Option.Rel (List.Forall₂ (Respelled Shape.fragmentImport)) o p) :
    o.mapM FragmentImport.listOfJson = p.mapM FragmentImport.listOfJson := by
  cases h with
  | none => rfl
  | some h =>
    simp only [Option.mapM_some, FragmentImport.listOfJson,
      mapM_congr h fun _ _ ↦ FragmentImport.ofJson_congr]

theorem agree_container (h : Respelled (.object true Shape.containerField) v w)
    (virtualNode : Bool) :
    Checked.Agree ContainerInput.Agree (container virtualNode v) (container virtualNode w) := by
  refine (Fields.agree_ofJson h _).bind fun f g hfg ↦ ?_
  refine agree_bind_of_eq (Fields.string_congr (hfg.get?_eq rfl) _) fun name ↦ ?_
  refine (hfg.object rfl _).bind fun o p hop ↦ ?_
  cases hop with
  | none => exact .error _
  | @some properties properties' h =>
    have himage : properties.get? "image" = properties'.get? "image" := h.get?_eq rfl
    have hid : properties.get? "id" = properties'.get? "id" := h.get?_eq rfl
    have hidentity : properties.get? "workloadIdentity" = properties'.get? "workloadIdentity" :=
      h.get?_eq rfl
    refine (h.list rfl _).bind fun e e' he ↦ ?_
    refine agree_bind_of_eq (mapM_congr (forall₂_getD he) fun _ _ ↦ environmentVariable_congr)
      fun environment ↦ ?_
    refine (h.list rfl _).bind fun m m' hm ↦ ?_
    refine agree_bind_of_eq (mounts_congr hm) fun mounts ↦ ?_
    refine agree_bind_of_eq (security_congr h) fun s ↦ ?_
    refine agree_bind_of_eq (Fields.bool_congr hidentity _) fun identity ↦ ?_
    refine .ok ⟨rfl, rfl, _, _, rfl, rfl, ?_⟩
    refine Paired.agree_of_forall₂ (Paired.forall₂_ofList (SameField.forall₂_present ?_))
    rw [himage, hid]
    refine List.rel_append (List.rel_append ?_ (forall₂_copied h)) ?_
    · exact .cons (sameField_refl rfl _) (.cons (sameField_refl rfl _)
        (.cons (sameField_refl rfl _) .nil))
    · exact .cons (sameField_refl rfl _) (.cons (sameField_refl rfl _) .nil)

structure Agree (a b : PolicyInput) : Prop where
  version : a.version = b.version
  containers : List.Forall₂ ContainerInput.Agree a.containers b.containers
  fragments : a.fragments = b.fragments

theorem agree_ofJson (h : Respelled Shape.input v w) :
    Checked.Agree Agree (ofJson v) (ofJson w) := by
  refine (Fields.agree_ofJson h _).bind fun f g hfg ↦ ?_
  have hversion : f.get? "version" = g.get? "version" := hfg.get?_eq rfl
  refine agree_bind_of_eq (Fields.string_congr (hfg.get?_eq rfl) _) fun scenario ↦ ?_
  refine (hfg.list rfl _).bind fun o p hop ↦ ?_
  cases hop with
  | none => exact .error _
  | some hitems =>
    refine (agree_mapM hitems fun _ _ hvw ↦ agree_container hvw _).bind fun cs ds hcs ↦ ?_
    refine (hfg.list rfl _).bind fun fs gs hfs ↦ ?_
    exact agree_bind_of_eq (imports_congr hfs) fun imports ↦ .ok ⟨by rw [hversion], hcs, rfl⟩

end PolicyInput

namespace Compiler

variable {a b : PolicyInput} (h : a.Agree b) (k : Compiler)

include h

theorem buildContainers_congr : k.buildContainers a = k.buildContainers b := by
  refine mapM_congr h.containers fun c d hcd ↦ ?_
  rw [hcd.role]
  exact Container.ofSpec_congr hcd.raw d.role k.options

theorem compile_congr : k.compile a = k.compile b := by
  simp only [compile, run, importsFor, buildContainers_congr h k, h.fragments]

theorem compileAll_congr (imports : List FragmentImport) :
    k.compileAll a imports = k.compileAll b imports := by
  simp only [compileAll, buildContainers_congr h k]

theorem compileFragment_congr : k.compileFragment a = k.compileFragment b := by
  simp only [compileFragment, compileAll_congr h k, h.fragments]

theorem compileUnresolved_congr : k.compileUnresolved a = k.compileUnresolved b := by
  simp only [compileUnresolved, compileAll_congr h k, importsFor, h.fragments]

end Compiler

/-- An input with its keys respelled is compiled to the same document, or fails with the same
error. -/
theorem compile_respelled (h : Respelled Shape.input v w) (k : Compiler) :
    (PolicyInput.ofJson v >>= k.compile) = (PolicyInput.ofJson w >>= k.compile) ∧
    (PolicyInput.ofJson v >>= fun input ↦ (k.compileFragment input).result) =
      (PolicyInput.ofJson w >>= fun input ↦ (k.compileFragment input).result) ∧
    (PolicyInput.ofJson v >>= fun input ↦ (k.compileUnresolved input).result) =
      (PolicyInput.ofJson w >>= fun input ↦ (k.compileUnresolved input).result) := by
  have hinput := PolicyInput.agree_ofJson h
  refine ⟨hinput.bind_eq ?_, hinput.bind_eq ?_, hinput.bind_eq ?_⟩
  · exact fun a b hab ↦ k.compile_congr hab
  · intro a b hab
    rw [k.compileFragment_congr hab]
  · intro a b hab
    rw [k.compileUnresolved_congr hab]

def usualInput : Json := .obj [
  ("containers", .arr [.obj [
    ("name", .str "app"),
    ("properties", .obj [
      ("environmentVariables", .arr [.obj [
        ("name", .str "A"), ("regex", .bool true), ("strategy", .null), ("value", .str ".+")]]),
      ("execProcesses", .arr [.obj [
        ("allowStdioAccess", .bool false), ("command", .arr [.str "sh"]), ("signals", .null)]]),
      ("image", .str "image:1"),
      ("securityContext", .obj [("privileged", .bool true)]),
      ("volumeMounts", .arr [.obj [
        ("mountPath", .str "/m"), ("mountType", .str "emptyDir"), ("readonly", .bool true)]])])]]),
  ("fragments", .arr [.obj [
    ("feed", .str "feed"), ("issuer", .str "issuer"), ("minimum_svn", .str "1")]]),
  ("scenario", .str "vn2"),
  ("version", .null)]

def respelledInput : Json := .obj [
  ("CONTAINERS", .arr [.obj [
    ("NAME", .str "app"),
    ("Properties", .obj [
      ("EXECProcesses", .arr [.obj [
        ("ALLOWSTDIOACCESS", .bool false), ("Command", .arr [.str "sh"])]]),
      ("EnvironmentVariables", .arr [.obj [
        ("Name", .str "A"), ("REGEX", .bool true), ("Value", .str ".+")]]),
      ("IMAGE", .str "image:1"),
      ("SecurityContext", .obj [("PRIVILEGED", .bool true)]),
      ("VolumeMounts", .arr [.obj [
        ("MOUNTPATH", .str "/m"), ("MountType", .str "emptyDir"), ("READONLY", .bool true)]])])]]),
  ("Fragments", .arr [.obj [
    ("FEED", .str "feed"), ("Issuer", .str "issuer"), ("MINIMUM_SVN", .str "1")]]),
  ("SCENARIO", .str "vn2")]

theorem respelled_respelledInput : Respelled Shape.input usualInput respelledInput := by
  refine ⟨by decide, .keep ?_ ?_ (.keep ?_ ?_ (.keep ?_ rfl (.drop rfl .nil)))⟩
  any_goals decide +kernel
  · refine List.Forall₂.cons ⟨by decide, .keep ?_ rfl (.keep ?_ ?_ .nil)⟩ .nil
    any_goals decide +kernel
    refine ⟨by decide, .perm ?_ (.swap _ _ _)⟩
    refine .keep ?_ ?_ (.keep ?_ ?_ (.keep ?_ rfl (.keep ?_ ?_ (.keep ?_ ?_ .nil))))
    any_goals decide +kernel
    · refine List.Forall₂.cons ⟨by decide, ?_⟩ .nil
      refine .keep ?_ rfl (.keep ?_ rfl (.drop rfl (.keep ?_ rfl .nil))) <;> decide +kernel
    · refine List.Forall₂.cons ⟨by decide, ?_⟩ .nil
      refine .keep ?_ rfl (.keep ?_ rfl (.drop rfl .nil)) <;> decide +kernel
    · refine ⟨by decide, .keep ?_ rfl .nil⟩
      decide +kernel
    · refine List.Forall₂.cons ⟨by decide, ?_⟩ .nil
      refine .keep ?_ rfl (.keep ?_ rfl (.keep ?_ rfl .nil)) <;> decide +kernel
  · refine List.Forall₂.cons ⟨by decide, ?_⟩ .nil
    refine .keep ?_ rfl (.keep ?_ rfl (.keep ?_ rfl .nil)) <;> decide +kernel

def resolvingCompiler : Compiler where
  options := { debugMode := true }
  discovery := some {
    attached := fun _ ↦ .ok [⟨"feed", "svn := 1\ncontainers := [\x7b\"id\": \"image:1\"\x7d]"⟩]
    standalone := fun _ ↦ .ok [] }

theorem compile_respelledInput :
    Respelled Shape.input usualInput respelledInput ∧
    (∃ c, (PolicyInput.ofJson usualInput >>= resolvingCompiler.compile) = .ok c) ∧
    (PolicyInput.ofJson usualInput >>= resolvingCompiler.compile) =
      (PolicyInput.ofJson respelledInput >>= resolvingCompiler.compile) ∧
    (PolicyInput.ofJson usualInput >>= fun input ↦
        (resolvingCompiler.compileFragment input).result) =
      (PolicyInput.ofJson respelledInput >>= fun input ↦
        (resolvingCompiler.compileFragment input).result) ∧
    (PolicyInput.ofJson usualInput >>= fun input ↦
        (resolvingCompiler.compileUnresolved input).result) =
      (PolicyInput.ofJson respelledInput >>= fun input ↦
        (resolvingCompiler.compileUnresolved input).result) :=
  ⟨respelled_respelledInput, ⟨_, rfl⟩, compile_respelled respelled_respelledInput resolvingCompiler⟩

end ConfidentialPolicy

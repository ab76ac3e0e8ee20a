import ConfidentialPolicy.Proofs.Compile

namespace ConfidentialPolicy

open Checked

def Resolution.fragmentIds (r : Resolution) : List String :=
  r.fragmentContainers.filterMap recordId?

namespace Compiler

def withDiscovery (k : Compiler) (d : Discovery) : Compiler := { k with discovery := some d }

/-- How a compilation stands to the document of all declared containers. -/
structure Coverage (declared : List Container) (whole : Document) (c : Compilation)
    (r : Resolution) : Prop where
  resolution : c.resolution = some r
  inline : c.document.containers = whole.containers.filter (·.id ∉ r.fragmentIds)
  covered : r.covered = declared.filter (·.id ∈ r.fragmentIds)
  fragments : c.document.fragments = whole.fragments
  records : c.document.containersJson false =
    .arr ((whole.containers.filter (·.id ∉ r.fragmentIds)).map (·.record false) ++
      [pauseContainer.record true])
  /-- Of the declared containers and the same ones with their layers, in step, either the latter is
  in the document or the former is covered. -/
  exclusive : List.Forall₂ (fun x y ↦ y = x.withLayers y.layers ∧
    (y ∈ c.document.containers ↔ x ∉ r.covered)) declared whole.containers
  complete : c.document.containers.length + r.covered.length = declared.length

theorem populate_aligned {k : Compiler} {cs ds : List Container} (h : cs.mapM k.populate = .ok ds) :
    List.Forall₂ (fun x y ↦ y = x.withLayers y.layers) cs ds :=
  (mapM_eq_ok_iff.mp h).imp fun x y hxy ↦ by
    obtain ⟨layers, rfl⟩ := populate_eq_ok hxy
    rfl

theorem populate_filter {k : Compiler} {cs ds : List Container} (h : cs.mapM k.populate = .ok ds)
    (p : String → Bool) : (cs.filter (p ·.id)).mapM k.populate = .ok (ds.filter (p ·.id)) :=
  mapM_filter_eq_ok h fun x y hxy ↦ by
    obtain ⟨layers, rfl⟩ := populate_eq_ok hxy
    rfl

/-- Compiling with a discovery leaves out what fragments cover and changes nothing else. -/
theorem exists_coverage (k : Compiler) (d : Discovery) (input : PolicyInput) {whole : Document}
    (h : (k.compileUnresolved input).result = .ok whole) :
    ∃ declared c r, k.buildContainers input = .ok declared ∧
      (k.withDiscovery d).compile input = .ok c ∧ Coverage declared whole c r := by
  obtain ⟨declared, hdeclared, filled, hfilled, rfl⟩ := compileUnresolved_eq_ok_iff.mp h
  let r := Resolution.resolve d declared (k.importsFor input)
  -- Layers are filled in after the partition, but they leave the ids alone that it goes by.
  have hinline : r.inline.mapM k.populate = .ok (filled.filter (·.id ∉ r.fragmentIds)) :=
    populate_filter hfilled fun id ↦ decide (id ∉ r.fragmentIds)
  have hcompile : (k.withDiscovery d).compile input = .ok _ :=
    compile_eq_ok_iff.mpr ⟨declared, hdeclared, _, hinline, rfl⟩
  refine ⟨declared, _, r, hdeclared, hcompile, rfl, rfl, rfl, rfl, rfl, ?_, ?_⟩
  · have haligned := List.forall₂_iff_zip.mp (populate_aligned hfilled)
    refine List.forall₂_iff_zip.mpr ⟨haligned.1, fun {x y} hxy ↦ ⟨haligned.2 hxy, ?_⟩⟩
    obtain ⟨hx, hy⟩ := List.of_mem_zip hxy
    have hid : y.id = x.id := by rw [haligned.2 hxy, Container.withLayers]
    have hinside : y ∈ filled.filter (·.id ∉ r.fragmentIds) ↔ x.id ∉ r.fragmentIds := by
      simp [hy, hid]
    have hcovered : x ∈ r.covered ↔ x.id ∈ r.fragmentIds :=
      List.mem_filter.trans (by simp [hx, Resolution.fragmentIds, r, Resolution.resolve])
    exact hinside.trans (not_congr hcovered).symm
  · have hfilled := (mapM_eq_ok_iff.mp hinline).length_eq
    have hsplit := (List.filter_append_perm (·.id ∈ r.fragmentIds) declared).length_eq
    have hnot : r.inline = declared.filter fun x ↦ !decide (x.id ∈ r.fragmentIds) :=
      List.filter_congr fun x _ ↦ decide_not
    rw [List.length_append, ← hnot, hfilled, Nat.add_comm] at hsplit
    exact hsplit

def layeredCompiler : Compiler where
  options := {}
  layers := some fun _ ↦ .ok ["layer"]

def twoContainers : PolicyInput where
  version := none
  containers := ["covered", "inline"].map fun id ↦ ⟨none, .obj [("id", .str id),
    ("containerImage", .str "image:1"), ("environmentVariables", .arr [])], .plain⟩
  fragments := some [⟨"feed", "issuer", 1, []⟩]

def oneFragment : Discovery where
  attached _ := .ok [⟨"feed", "svn := \"1\"\ncontainers := [\x7b\"id\": \"covered\"\x7d]"⟩]
  standalone _ := .error (.image "offline")

theorem coverage_twoContainers : ∃ whole,
    (layeredCompiler.compileUnresolved twoContainers).result = .ok whole ∧
    ∃ declared c r, layeredCompiler.buildContainers twoContainers = .ok declared ∧
      (layeredCompiler.withDiscovery oneFragment).compile twoContainers = .ok c ∧
      Coverage declared whole c r := by
  have h : (layeredCompiler.compileUnresolved twoContainers).result = .ok _ := rfl
  exact ⟨_, h, exists_coverage layeredCompiler oneFragment twoContainers h⟩

end Compiler

end ConfidentialPolicy

import ConfidentialPolicy.Compile
import ConfidentialPolicy.Proofs.Container

namespace ConfidentialPolicy.Compiler

open Checked

def layered (lookup : LayerLookup) (c : Container) : Checked Container :=
  match lookup c.image with
  | .ok layers => .ok (c.withLayers layers)
  | .error e => .error (layerError c.image e)

def Remembers (lookup : LayerLookup) (known : List (String × List String)) : Prop :=
  ∀ image layers, known.lookup image = some layers → lookup image = .ok layers

theorem Remembers.cons {lookup : LayerLookup} {known : List (String × List String)} {image : String}
    {layers : List String} (h : Remembers lookup known) (hi : lookup image = .ok layers) :
    Remembers lookup ((image, layers) :: known) := by
  intro other answer ha
  rw [List.lookup_cons] at ha
  split at ha
  · next he =>
    cases ha
    rw [eq_of_beq he, hi]
  · exact h other answer ha

/-- Asking for an image once does what asking for it every time does. -/
theorem fillLayers_result {lookup : LayerLookup} {known : List (String × List String)}
    (h : Remembers lookup known) (cs : List Container) :
    (fillLayers lookup known cs).result = cs.mapM (layered lookup) := by
  induction cs generalizing known with
  | nil => rfl
  | cons c cs ih =>
    rw [List.mapM_cons]
    simp only [fillLayers]
    split
    · next layers hk =>
      rw [layered, h c.image layers hk]
      simp only [Asked.map, ih h]
      cases cs.mapM (layered lookup) <;> rfl
    · split
      · next e he =>
        rw [layered, he]
        rfl
      · next layers hl =>
        rw [layered, hl]
        simp only [ih (h.cons hl)]
        cases cs.mapM (layered lookup) <;> rfl

def populate (k : Compiler) (c : Container) : Checked Container :=
  match k.layers with
  | none => .ok c
  | some lookup => layered lookup c

theorem populateLayers_result (k : Compiler) (cs : List Container) :
    (k.populateLayers cs).result = cs.mapM k.populate := by
  unfold populateLayers
  cases hk : k.layers with
  | none =>
    have hpopulate : k.populate = fun c ↦ pure c := funext fun c ↦ by
      rw [populate, hk]
      rfl
    rw [hpopulate, mapM_pure_eq]
    rfl
  | some lookup =>
    have hpopulate : k.populate = layered lookup := funext fun c ↦ by rw [populate, hk]
    rw [hpopulate]
    exact fillLayers_result (by simp [Remembers]) cs

theorem populate_eq_ok {k : Compiler} {c d : Container} (h : k.populate c = .ok d) :
    ∃ layers, d = c.withLayers layers := by
  unfold populate layered at h
  split at h
  · cases h
    exact ⟨c.layers, rfl⟩
  · split at h
    · next layers _ =>
      cases h
      exact ⟨layers, rfl⟩
    · cases h

def leftOver (k : Compiler) (declared : List Container) (imports : List FragmentImport) :
    List Container :=
  match k.resolution? declared imports with
  | none => declared
  | some r => r.inline

theorem leftOver_sublist (k : Compiler) (declared : List Container)
    (imports : List FragmentImport) : (k.leftOver declared imports).Sublist declared := by
  unfold leftOver resolution?
  cases k.discovery with
  | none => exact List.Sublist.refl declared
  | some d => exact List.filter_sublist

def compilation (k : Compiler) (declared filled : List Container) (imports : List FragmentImport) :
    Compilation :=
  ⟨(Document.mk filled imports none).withPause, k.resolution? declared imports⟩

theorem compile_eq (k : Compiler) (input : PolicyInput) :
    k.compile input = (do
      let declared ← k.buildContainers input
      let filled ← (k.leftOver declared (k.importsFor input)).mapM k.populate
      pure (k.compilation declared filled (k.importsFor input))) := by
  simp only [compile, run]
  cases k.buildContainers input with
  | error e => rfl
  | ok declared =>
    change ((k.populateLayers (k.leftOver declared (k.importsFor input))).result.map _) = _
    rw [populateLayers_result]
    cases h : (k.leftOver declared (k.importsFor input)).mapM k.populate <;>
      simp only [bind, Except.bind, h] <;> rfl

theorem compileAll_eq (k : Compiler) (input : PolicyInput) (imports : List FragmentImport) :
    (k.compileAll input imports).result = (do
      let declared ← k.buildContainers input
      let filled ← declared.mapM k.populate
      pure (Document.mk filled imports none)) := by
  simp only [compileAll]
  cases k.buildContainers input with
  | error e => rfl
  | ok declared =>
    simp only [Asked.map, populateLayers_result]
    cases h : declared.mapM k.populate <;> simp only [bind, Except.bind, h] <;> rfl

theorem compile_eq_ok_iff {k : Compiler} {input : PolicyInput} {c : Compilation} :
    k.compile input = .ok c ↔ ∃ declared, k.buildContainers input = .ok declared ∧
      ∃ filled, (k.leftOver declared (k.importsFor input)).mapM k.populate = .ok filled ∧
        k.compilation declared filled (k.importsFor input) = c := by
  simp only [compile_eq, bind_eq_ok_iff, pure, Except.pure, Except.ok.injEq]

theorem compileAll_eq_ok_iff {k : Compiler} {input : PolicyInput} {imports : List FragmentImport}
    {d : Document} : (k.compileAll input imports).result = .ok d ↔ ∃ declared,
      k.buildContainers input = .ok declared ∧ ∃ filled, declared.mapM k.populate = .ok filled ∧
        Document.mk filled imports none = d := by
  simp only [compileAll_eq, bind_eq_ok_iff, pure, Except.pure, Except.ok.injEq]

theorem compileUnresolved_eq_ok_iff {k : Compiler} {input : PolicyInput} {d : Document} :
    (k.compileUnresolved input).result = .ok d ↔ ∃ declared,
      k.buildContainers input = .ok declared ∧ ∃ filled, declared.mapM k.populate = .ok filled ∧
        Document.mk filled (k.importsFor input) none = d :=
  compileAll_eq_ok_iff

theorem built_of_populate {k : Compiler} {cs ds : List Container} (h : cs.mapM k.populate = .ok ds)
    (hcs : ∀ c ∈ cs, c.Built) : ∀ d ∈ ds, d.Built := by
  intro d hd
  obtain ⟨c, hc, hd⟩ := exists_of_mem_mapM h hd
  obtain ⟨layers, rfl⟩ := populate_eq_ok hd
  exact (hcs c hc).edit (.layers layers)

theorem built_of_buildContainers {k : Compiler} {input : PolicyInput} {declared : List Container}
    (h : k.buildContainers input = .ok declared) : ∀ c ∈ declared, c.Built := by
  intro c hc
  obtain ⟨spec, -, hspec⟩ := exists_of_mem_mapM h hc
  exact .ofSpec hspec

theorem built_of_compileAll {k : Compiler} {input : PolicyInput} {imports : List FragmentImport}
    {d : Document} (h : (k.compileAll input imports).result = .ok d) : d.Built := by
  obtain ⟨declared, hdeclared, filled, hfilled, rfl⟩ := compileAll_eq_ok_iff.mp h
  exact ⟨built_of_populate hfilled (built_of_buildContainers hdeclared), .inl rfl⟩

theorem built_of_compile {k : Compiler} {input : PolicyInput} {c : Compilation}
    (h : k.compile input = .ok c) : c.document.Built := by
  obtain ⟨declared, hdeclared, filled, hfilled, rfl⟩ := compile_eq_ok_iff.mp h
  refine ⟨built_of_populate hfilled fun c hc ↦ ?_, .inr rfl⟩
  exact built_of_buildContainers hdeclared c
    ((k.leftOver_sublist declared (k.importsFor input)).mem hc)

theorem fragments_of_compile {k : Compiler} {input : PolicyInput} {c : Compilation}
    (h : k.compile input = .ok c) : c.document.fragments = k.importsFor input := by
  obtain ⟨declared, -, filled, -, rfl⟩ := compile_eq_ok_iff.mp h
  rfl

end ConfidentialPolicy.Compiler

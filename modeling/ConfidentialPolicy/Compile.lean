import ConfidentialPolicy.Fragment.Resolution
import ConfidentialPolicy.Input

namespace ConfidentialPolicy

abbrev LayerLookup := String → Checked (List String)

structure Compiler where
  options : Options
  layers : Option LayerLookup := none
  discovery : Option Discovery := none

/-- A result with the images whose layers were asked for, in order. -/
structure Asked (α : Type) where
  result : Checked α
  images : List String

namespace Asked

def map {α β : Type} (f : α → β) (a : Asked α) : Asked β := ⟨a.result.map f, a.images⟩

def nothing {α : Type} (result : Checked α) : Asked α := ⟨result, []⟩

end Asked

namespace Compiler

def buildContainers (k : Compiler) (input : PolicyInput) : Checked (List Container) :=
  input.containers.mapM fun c ↦ Container.ofSpec c.raw c.role k.options

def importsFor (k : Compiler) (input : PolicyInput) : List FragmentImport :=
  input.fragments.getD (FragmentImport.defaults k.options)

def layerError (image : String) : PolicyError → PolicyError
  | .image reason => .image reason
  | e => .image (image ++ ": " ++ e.message)

/-- Fills in layers; an image is asked for once, and `known` are the answers so far. -/
def fillLayers (lookup : LayerLookup) (known : List (String × List String)) :
    List Container → Asked (List Container)
  | [] => ⟨.ok [], []⟩
  | c :: cs => match known.lookup c.image with
    | some layers => (fillLayers lookup known cs).map (c.withLayers layers :: ·)
    | none => match lookup c.image with
      | .error e => ⟨.error (layerError c.image e), [c.image]⟩
      | .ok layers =>
        let rest := fillLayers lookup ((c.image, layers) :: known) cs
        ⟨rest.result.map (c.withLayers layers :: ·), c.image :: rest.images⟩

def populateLayers (k : Compiler) (containers : List Container) : Asked (List Container) :=
  match k.layers with
  | none => .nothing (.ok containers)
  | some lookup => fillLayers lookup [] containers

structure Compilation where
  document : Document
  resolution : Option Resolution
deriving DecidableEq, Repr

structure Run where
  result : Checked Compilation
  layerCalls : List String
  discoveryCalls : List DiscoveryCall

def resolution? (k : Compiler) (containers : List Container) (imports : List FragmentImport) :
    Option Resolution :=
  k.discovery.map (Resolution.resolve · containers imports)

def run (k : Compiler) (input : PolicyInput) : Run :=
  match k.buildContainers input with
  | .error e => ⟨.error e, [], []⟩
  | .ok containers =>
    let imports := k.importsFor input
    let resolution := k.resolution? containers imports
    let inline := match resolution with
      | none => containers
      | some r => r.inline
    let filled := k.populateLayers inline
    ⟨filled.result.map fun cs ↦ ⟨(Document.mk cs imports none).withPause, resolution⟩,
      filled.images,
      (resolution.map Resolution.calls).getD []⟩

def compile (k : Compiler) (input : PolicyInput) : Checked Compilation := (k.run input).result

/-- Builds all declared containers with their layers, whatever fragments cover. -/
def compileAll (k : Compiler) (input : PolicyInput) (imports : List FragmentImport) :
    Asked Document :=
  match k.buildContainers input with
  | .error e => .nothing (.error e)
  | .ok containers => (k.populateLayers containers).map (Document.mk · imports none)

def compileFragment (k : Compiler) (input : PolicyInput) : Asked Document :=
  k.compileAll input (input.fragments.getD [])

def compileUnresolved (k : Compiler) (input : PolicyInput) : Asked Document :=
  k.compileAll input (k.importsFor input)

end Compiler

end ConfidentialPolicy

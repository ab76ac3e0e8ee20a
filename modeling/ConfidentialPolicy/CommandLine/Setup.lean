import ConfidentialPolicy.CommandLine.Plan
import ConfidentialPolicy.CommandLine.Request
import ConfidentialPolicy.Fragment.Store
import ConfidentialPolicy.Json.Reader
import ConfidentialPolicy.LayerMap
import ConfidentialPolicy.Tool

namespace ConfidentialPolicy.CommandLine

def Attempt.ofChecked {α : Type} (c : Checked α) : Attempt α := c.mapError .policy

def readText (files : Files) (path : String) : Attempt String := (files.read path).mapError .file

def readSource (files : Files) (path : String) : Attempt String :=
  (files.read path).mapError fun fault ↦ .policy (.io fault)

def readAs (files : Files) (path : String) {α : Type} (view : String → Option α) : Attempt α := do
  match view (← readText files path) with
  | some a => .ok a
  | none => .error .notJson

def readInput (files : Files) (path : String) : Attempt PolicyInput := do
  .ofChecked (PolicyInput.ofText (← readSource files path))

def readTemplate (files : Files) (path : String) : Attempt Json := readAs files path Json.parse?

structure Setup where
  options : Options
  layers : Option LayerMap
  store : Option FragmentStore
  signer : Signer
  registry : Registry
  reports : ReportStyle

namespace Setup

def readSidecars (files : Files) : Option String → Attempt SidecarTable
  | none => .ok .builtin
  | some path => do .ofChecked (SidecarTable.ofText (← readSource files path))

def readLayers (files : Files) : Option String → Attempt (Option LayerMap)
  | none => .ok none
  | some path => (readAs files path LayerMap.ofText?).map some

def readStore (files : Files) : Option String → Attempt (Option FragmentStore)
  | none => .ok none
  | some path => (readAs files path FragmentIndex.ofText?).map fun i ↦ some ⟨Path.parent path, i⟩

/-- Loads what the settings name; the first file that can not be read stops it. -/
def load (tools : Tools) (files : Files) (s : Settings) : Attempt Setup := do
  let sidecars ← readSidecars files s.sidecars
  let layers ← readLayers files s.layers
  let store ← readStore files s.fragmentIndex
  pure
    { options := { debugMode := s.debugMode, sidecars }
      layers
      store
      signer := tools.signer s.signProgram
      registry := tools.registry s.pushProgram
      reports := s.reports }

def compiler (s : Setup) (files : Files) (infrastructureSvn : Option UInt64) : Compiler where
  options := { s.options with infrastructureSvn }
  layers := s.layers.map LayerMap.lookup
  discovery := s.store.map (FragmentStore.discovery · files)

end Setup

end ConfidentialPolicy.CommandLine

import ConfidentialPolicy.Compile
import ConfidentialPolicy.Json.Reader

namespace ConfidentialPolicy

structure LayerMap where
  images : KeyMap (List String)
deriving DecidableEq, Repr

namespace LayerMap

def ofText? (text : String) : Option LayerMap :=
  ((Json.readWritten? text.toList).bind (Written.mapOf? Written.strings?)).map (⟨·⟩)

def lookup (m : LayerMap) : LayerLookup := fun image ↦
  match KeyMap.get? m.images image with
  | some layers => .ok layers
  | none => .error (.image (image ++ " is not in the layer map"))

end LayerMap

end ConfidentialPolicy

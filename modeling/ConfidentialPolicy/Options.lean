import ConfidentialPolicy.Sidecar

namespace ConfidentialPolicy

structure Options where
  /-- User containers get a shell, and processes get standard streams unless declared otherwise. -/
  debugMode : Bool := false
  infrastructureSvn : Option UInt64 := none
  sidecars : SidecarTable := .builtin
deriving DecidableEq, Repr

end ConfidentialPolicy

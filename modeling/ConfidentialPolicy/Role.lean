namespace ConfidentialPolicy

/-- The role decides which mounts and rules are injected into a container. -/
inductive Role where
  | plain
  | user
  | virtualNode (privileged workloadIdentity : Bool)
deriving DecidableEq, Repr, Inhabited

end ConfidentialPolicy

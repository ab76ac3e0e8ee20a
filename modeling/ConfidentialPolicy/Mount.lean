import ConfidentialPolicy.Fields
import ConfidentialPolicy.Role

namespace ConfidentialPolicy

inductive Volume where
  | azureFile
  | secret
  | configMap
  | emptyDir
  | gitRepo
  | hostPath
  | resolvconf
deriving DecidableEq, Repr

namespace Volume

def all : List Volume := [azureFile, secret, configMap, emptyDir, gitRepo, hostPath, resolvconf]

def name : Volume → String
  | azureFile => "azureFile"
  | secret => "secret"
  | configMap => "configMap"
  | emptyDir => "emptyDir"
  | gitRepo => "gitRepo"
  | hostPath => "hostPath"
  | resolvconf => "resolvconf"

def source : Volume → String
  | azureFile => "sandbox:///tmp/atlas/azureFileVolume/.+"
  | secret => "sandbox:///tmp/atlas/secretsVolume/.+"
  | configMap => "sandbox:///tmp/atlas/configMapVolume/.+"
  | emptyDir => "sandbox:///tmp/atlas/emptydir/.+"
  | gitRepo => "sandbox:///tmp/atlas/gitRepoVolume/.+"
  | hostPath => "sandbox:///tmp/atlas/hostPath/.+"
  | resolvconf => "sandbox:///tmp/atlas/resolvconf/.+"

def ofName? (s : String) : Option Volume := all.find? (·.name == s)

end Volume

structure MountSpec where
  volume : Volume
  path : String
  readonly : Bool
  options : Option (List String)
deriving DecidableEq, Repr

/-- A mount as a policy records it; all mounts are bind mounts. -/
structure Mount where
  source : String
  destination : String
  options : List String
  readonly : Bool
deriving DecidableEq, Repr

namespace MountSpec

def ofJson (raw : Json) (path : String) : Checked MountSpec := do
  let fields ← Fields.ofJson raw path
  let name ← fields.string "type" (path ++ "[type]")
  match Volume.ofName? (name.getD "") with
  | none => .error (.field (path ++ "[type]") (.unknownMount (Volume.all.map Volume.name)))
  | some volume =>
    let destination ← fields.string "path" (path ++ "[path]")
    if destination.getD "" = "" then .error (.field (path ++ "[path]") .missing) else
    let readonly ← fields.bool "readonly" (path ++ "[readonly]")
    let options ← fields.strings "options" (path ++ "[options]")
    pure ⟨volume, destination.getD "", readonly.getD false, options.filter (!·.isEmpty)⟩

def defaultOptions (readonly : Bool) : List String :=
  ["rbind", "rshared", if readonly then "ro" else "rw"]

def build (s : MountSpec) : Mount :=
  { source := s.volume.source
    destination := s.path
    options := s.options.getD (defaultOptions s.readonly)
    readonly := s.readonly }

def injected (volume : Volume) (path : String) (readonly : Bool) : MountSpec :=
  ⟨volume, path, readonly, none⟩

end MountSpec

open MountSpec in
def Role.mounts : Role → List MountSpec
  | .plain => []
  | .user => [injected .resolvconf "/etc/resolv.conf" false]
  | .virtualNode privileged workloadIdentity =>
    [injected .secret "/var/run/secrets/kubernetes.io/serviceaccount" true,
      injected .emptyDir "/etc/hosts" false,
      injected .emptyDir "/dev/termination-log" false,
      injected .emptyDir "/etc/hostname" false,
      injected .resolvconf "/etc/resolv.conf" false] ++
    (if privileged then
      [injected .hostPath "/dev" false, injected .hostPath "/sys/fs/cgroup" false] else []) ++
    (if workloadIdentity then [injected .secret "/var/run/secrets/azure/tokens" true] else [])

/-- The mounts of a container: declared ones, then those of its role unless it is a sidecar. -/
def buildMounts (declared : List MountSpec) (role : Role) (isSidecar : Bool) : List Mount :=
  (declared ++ if isSidecar then [] else role.mounts).map MountSpec.build

def Mount.toJson (m : Mount) : Json :=
  .object [("destination", .str m.destination), ("options", .ofStrings m.options),
    ("source", .str m.source), ("type", .str "bind")]

end ConfidentialPolicy

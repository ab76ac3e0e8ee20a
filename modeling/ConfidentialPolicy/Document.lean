import ConfidentialPolicy.Container
import ConfidentialPolicy.Fragment.Import
import ConfidentialPolicy.Text.Base64
import ConfidentialPolicy.Text.Blank
import ConfidentialPolicy.Text.Utf8

namespace ConfidentialPolicy

structure Document where
  containers : List Container
  fragments : List FragmentImport
  pause : Option Container := none
deriving DecidableEq, Repr

inductive OutputFormat where
  | encoded
  | raw
  | prettyPrint
deriving DecidableEq, Repr

def encodeText (text : String) : String :=
  String.ofList (Text.Base64.encode (Text.Utf8.encode text.toList))

def decodeText (text : String) : Checked String :=
  match Text.Base64.decode? (Text.trim text.toList) with
  | none => .error .notBase64
  | some octets => match Text.Utf8.decode? octets with
    | none => .error .notUtf8
    | some chars => .ok (String.ofList chars)

def pauseContainer : Container where
  id := "mcr.microsoft.com/oss/kubernetes/pause:3.6"
  image := "mcr.microsoft.com/oss/kubernetes/pause:3.6"
  command := ["/pause"]
  workingDir := "/"
  envRules := [
    EnvRule.make "PATH" "/usr/local/sbin:/usr/local/bin:/usr/sbin:/usr/bin:/sbin:/bin" .string true,
    EnvRule.make "TERM" "xterm" .string false]
  mounts := []
  elevated := false
  stdio := true
  execProcesses := []
  signals := []
  layers := ["16b514057a06ad665f92c02863aca074fd5976c755d26bff16365299169e8415"]
  kind := .plain

namespace Document

def apiVersion : String := "0.10.0"

def frameworkVersion : String := "0.2.3"

def reservedNamespace : String := "policy"

def flags : List (String × Bool) := [
  ("allow_properties_access", false),
  ("allow_dump_stacks", false),
  ("allow_runtime_logging", false),
  ("allow_environment_variable_dropping", true),
  ("allow_unencrypted_scratch", false),
  ("allow_capability_dropping", true)]

def frameworkRules : List String := [
  "mount_device", "unmount_device", "mount_overlay", "unmount_overlay", "create_container",
  "exec_in_container", "exec_external", "shutdown_container", "signal_container_process",
  "plan9_mount", "plan9_unmount", "get_properties", "dump_stacks", "runtime_logging",
  "load_fragment", "scratch_mount", "scratch_unmount"]

def withPause (d : Document) : Document := { d with pause := some pauseContainer }

def images (d : Document) : List String := Container.images d.containers

/-- The records of a document; the pause container comes last and never has an id. -/
def records (d : Document) (omitId : Bool) : List Json :=
  d.containers.map (·.record omitId) ++ d.pause.toList.map (·.record true)

def containersJson (d : Document) (omitId : Bool) : Json := .arr (d.records omitId)

def fragmentsJson (d : Document) : Json := FragmentImport.listToJson d.fragments

def flagLine (f : String × Bool) : String :=
  f.1 ++ " := " ++ (if f.2 then "true" else "false") ++ "\n"

def frameworkLine (rule : String) : String := rule ++ " := data.framework." ++ rule ++ "\n"

def policyHeader : String :=
  "package policy\n\n" ++
  "import future.keywords.every\nimport future.keywords.in\n\n" ++
  "api_version := \"" ++ apiVersion ++ "\"\n" ++
  "framework_version := \"" ++ frameworkVersion ++ "\"\n\n"

def policyFooter : String :=
  String.join (flags.map flagLine) ++ "\n" ++
  String.join (frameworkRules.map frameworkLine) ++
  "reason := \x7b\"errors\": data.framework.errors\x7d\n"

def policyTextOf (fragments containers : Json) : String :=
  policyHeader ++
  "fragments := " ++ fragments.pretty ++ "\n\n" ++
  "containers := " ++ containers.compact ++ "\n\n" ++
  policyFooter

def policyText (d : Document) (omitId : Bool) : String :=
  policyTextOf d.fragmentsJson (d.containersJson omitId)

def fragmentHeader (package : String) (svn : UInt64) : String :=
  "package " ++ package ++ "\n\n" ++
  "svn := \"" ++ Text.decimal svn.toNat ++ "\"\n" ++
  "framework_version := \"" ++ frameworkVersion ++ "\"\n\n"

/-- The text of a fragment with its two lists. Its package has a name, which is not the reserved
one. -/
def fragmentTextOf (package : String) (svn : UInt64) (fragments containers : Json) :
    Checked String :=
  if package = "" then .error (.field "namespace" .empty)
  else if package = reservedNamespace then
    .error (.field "namespace" (.reserved reservedNamespace))
  else .ok (fragmentHeader package svn ++
    "fragments := " ++ fragments.pretty ++ "\n\n" ++
    "containers := " ++ containers.pretty ++ "\n")

def fragmentText (d : Document) (package : String) (svn : UInt64) (omitId : Bool) :
    Checked String :=
  fragmentTextOf package svn d.fragmentsJson (d.containersJson omitId)

end Document

def OutputFormat.text (format : OutputFormat) (fragments containers : Json) : String :=
  match format with
  | .encoded => encodeText (Document.policyTextOf fragments containers)
  | .raw => containers.compact
  | .prettyPrint => containers.pretty

def Document.serialize (d : Document) (format : OutputFormat) (omitId : Bool) : String :=
  format.text d.fragmentsJson (d.containersJson omitId)

inductive Rendering where
  | policy
  | fragment (package : String) (svn : UInt64)
  | list (style : Json.Style)
  | output (format : OutputFormat)
deriving DecidableEq, Repr

def Rendering.text (r : Rendering) (fragments containers : Json) : Checked String :=
  match r with
  | .policy => .ok (Document.policyTextOf fragments containers)
  | .fragment package svn => Document.fragmentTextOf package svn fragments containers
  | .list style => .ok (containers.render style)
  | .output format => .ok (format.text fragments containers)

def Document.render (d : Document) (r : Rendering) (omitId : Bool) : Checked String :=
  r.text d.fragmentsJson (d.containersJson omitId)

end ConfidentialPolicy

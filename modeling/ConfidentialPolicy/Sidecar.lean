import ConfidentialPolicy.EnvRule.Basic
import ConfidentialPolicy.Json.Reader

namespace ConfidentialPolicy

def imageBase (image : String) : String := String.ofList (Text.splitFirst ':' image.toList).1

structure Baseline where
  command : List String
  workingDir : Option String
  envRules : List EnvRule
deriving DecidableEq, Repr

namespace Baseline

def directory? : Written → Option (Option String)
  | .null => some none
  | v => v.str?.map some

def ofWritten? (v : Written) : Option Baseline := do
  let r ← Record.ofWritten? ["command", "working_dir", "env_rules"] v
  let command ← r.fieldOr? 0 [] Written.strings?
  let workingDir ← r.fieldOr? 1 none directory?
  let envRules ← r.fieldOr? 2 [] fun v ↦ v.items?.bind (·.mapM EnvRule.ofWritten?)
  pure { command, workingDir, envRules }

def toJson (b : Baseline) : Json :=
  .object [("command", .ofStrings b.command),
    ("env_rules", .arr (b.envRules.map EnvRule.toJson)),
    ("working_dir", match b.workingDir with
      | none => .null
      | some dir => .str dir)]

end Baseline

structure SidecarTable where
  entries : KeyMap Baseline
deriving DecidableEq, Repr

namespace SidecarTable

/-- Reads a table from JSON text; of several entries with one key the last stays. -/
def ofText (text : String) : Checked SidecarTable :=
  match (Json.readWritten? text.toList).bind (Written.mapOf? Baseline.ofWritten?) with
  | some entries => .ok ⟨entries⟩
  | none => .error .badSidecarTable

def get? (t : SidecarTable) (image : String) : Option Baseline :=
  KeyMap.get? t.entries (imageBase image)

def isSidecar (t : SidecarTable) (image : String) : Bool := (t.get? image).isSome

def rule (strategy : Strategy) (pattern : String) : EnvRule := ⟨pattern, strategy, false⟩

def builtin : SidecarTable where
  entries := [
    ("mcr.microsoft.com/aci/atlas-mount-azure-file-volume",
      { command := ["/mount_azure_file.sh"]
        workingDir := some "/"
        envRules := [
          rule .string "PATH=/usr/local/sbin:/usr/local/bin:/usr/sbin:/usr/bin:/sbin:/bin",
          rule .re2 "AZURE_STORAGE_ACCOUNT_NAME=.+",
          rule .re2 "AZURE_STORAGE_ACCOUNT_KEY=.+",
          rule .re2 "AZURE_FILE_SHARE_NAME=.+",
          rule .re2 "MOUNT_PATH=.+",
          rule .re2 "HOSTNAME=.+",
          rule .string "TERM=xterm"] }),
    ("mcr.microsoft.com/aci/msi-atlas-adapter",
      { command := ["/bin/sh", "-c", "until ./msiAtlasAdapter; do echo $? restarting; done"]
        workingDir := some "/root/"
        envRules := [
          rule .string "PATH=/usr/local/sbin:/usr/local/bin:/usr/sbin:/usr/bin:/sbin:/bin:/root",
          rule .re2 "IDENTITY_API_VERSION=.+",
          rule .re2 "IDENTITY_HEADER=.+",
          rule .re2 "IDENTITY_SERVER_THUMBPRINT=.+",
          rule .re2 "HOSTNAME=.+",
          rule .string "TERM=xterm"] })]

end SidecarTable

end ConfidentialPolicy

import ConfidentialPolicy.Files.Basic
import ConfidentialPolicy.Fragment.Publish
import ConfidentialPolicy.Text.Blank

namespace ConfidentialPolicy

structure ToolCall where
  program : String
  arguments : List String
  directory : Option String := none
deriving DecidableEq, Repr

inductive ToolOutcome where
  | printed (output : String)
  | failed (status : Nat) (complaint : String)
  | notStarted (fault : IoFault)
deriving DecidableEq, Repr

abbrev Tools := ToolCall → ToolOutcome

inductive ToolError where
  | notStarted (program : String) (fault : IoFault)
  | failed (program : String) (status : Nat) (complaint : String)
  | emptyIssuer
deriving DecidableEq, Repr

def ToolError.message : ToolError → String
  | .notStarted program fault => "failed to run " ++ program ++ ": " ++ fault.message
  | .failed program status complaint =>
    program ++ " exited with exit status: " ++ Text.decimal status ++ ": " ++ complaint
  | .emptyIssuer => "signing tool returned an empty issuer"

namespace Tools

def trimmed (s : String) : String := String.ofList (Text.trim s.toList)

def hasZero (call : ToolCall) : Bool :=
  (call.program :: call.directory.toList ++ call.arguments).any Path.hasZero

def standard : Tools := fun call ↦
  if hasZero call then .notStarted .zeroInCall
  else if call.directory = some "" then .notStarted .notFound
  else if call.program = "/bin/echo" then .printed (String.intercalate " " call.arguments ++ "\n")
  else if call.program = "/bin/true" then .printed ""
  else if call.program = "/bin/false" then .failed 1 ""
  else .notStarted .notFound

def answer (tools : Tools) (call : ToolCall) : Except ToolError String :=
  match tools call with
  | .printed output => .ok (trimmed output)
  | .failed status complaint => .error (.failed call.program status (trimmed complaint))
  | .notStarted fault => .error (.notStarted call.program fault)

def run (tools : Tools) (call : ToolCall) : Checked String :=
  (tools.answer call).mapError fun e ↦ .unresolvable e.message

def signedPath (fragmentPath : String) : String := Path.withExtension fragmentPath "rego.cose"

def issuerCall (program chain : String) : ToolCall :=
  ⟨program, ["did:x509", "-chain", chain, "-policy", "CN"], none⟩

def signCall (program : String) (q : SigningRequest) : ToolCall :=
  ⟨program, ["create", "-payload", q.fragmentPath, "-key", q.key, "-chain", q.chain,
    "-algo", q.algorithm, "-feed", q.feed, "-issuer", q.issuer,
    "-content-type", "application/unknown+rego", "-salt", "zero",
    "-out", signedPath q.fragmentPath], none⟩

def pushCall (program feed signed : String) : ToolCall :=
  ⟨program, ["push", feed, "--artifact-type", "application/x-ms-ccepolicy-frag",
    Path.fileName signed ++ ":application/cose-x509+rego"], some (Path.parent signed)⟩

def signer (tools : Tools) (program : String) : Signer where
  createIssuer chain := do
    let issuer ← tools.run (issuerCall program chain)
    if issuer = "" then .error (.unresolvable ToolError.emptyIssuer.message) else .ok issuer
  sign q := (tools.run (signCall program q)).map fun _ ↦ signedPath q.fragmentPath

def registry (tools : Tools) (program : String) : Registry where
  push feed signed := (tools.run (pushCall program feed signed)).map fun _ ↦ ()

end Tools

end ConfidentialPolicy

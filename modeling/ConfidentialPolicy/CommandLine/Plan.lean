import ConfidentialPolicy.Files.Basic

namespace ConfidentialPolicy.CommandLine

inductive CommandError where
  | usage
  | policy (e : PolicyError)
  | file (fault : IoFault)
  | notJson
  | rawIntoTemplate
  | noImportList (path : String)
  | noGroupAt (position : Nat)
deriving DecidableEq, Repr

def CommandError.message : CommandError → String
  | .usage => "the command line can not be read"
  | .policy e => e.message
  | .file fault => fault.message
  | .notJson => "the file does not hold the expected JSON"
  | .rawIntoTemplate => "raw output can not be injected into a template"
  | .noImportList path => path ++ " does not hold a fragment list"
  | .noGroupAt position =>
    "template has no container group at position " ++ Text.decimal position

inductive Verdict where
  | clean
  | findings
deriving DecidableEq, Repr

structure Answer where
  output : String
  verdict : Verdict
deriving DecidableEq, Repr

abbrev Attempt := Except CommandError

def exitCode : Attempt Answer → UInt32
  | .ok ⟨_, .clean⟩ => 0
  | .ok ⟨_, .findings⟩ => 2
  | .error .usage => 2
  | .error _ => 1

/-- What keeps a text from being written to a path, apart from what the files say. -/
abbrev Obstacles := String → String → Option IoFault

def Obstacles.none : Obstacles := fun _ _ ↦ Option.none

structure Plan where
  write : Option (String × String)
  answer : Attempt Answer

structure Finished where
  answer : Attempt Answer
  files : Files

namespace Plan

def report (output : String) (verdict : Verdict) : Plan := ⟨none, .ok ⟨output, verdict⟩⟩

def save (path content output : String) : Plan :=
  ⟨some (path, content), .ok ⟨output, .clean⟩⟩

def writeFile (files : Files) (obstacles : Obstacles) (path content : String) :
    Except IoFault Files :=
  match obstacles path content with
  | some fault => .error fault
  | none => files.write path content

def commit (p : Plan) (files : Files) (obstacles : Obstacles := .none) : Finished :=
  match p.write with
  | none => ⟨p.answer, files⟩
  | some (path, content) => match writeFile files obstacles path content with
    | .ok files => ⟨p.answer, files⟩
    | .error fault => ⟨.error (.file fault), files⟩

end Plan

namespace Attempt

/-- At most one file is written, and the command answers only if that succeeds. -/
def commit (a : Attempt Plan) (files : Files) (obstacles : Obstacles := .none) : Finished :=
  match a with
  | .ok p => p.commit files obstacles
  | .error e => ⟨.error e, files⟩

end Attempt

end ConfidentialPolicy.CommandLine

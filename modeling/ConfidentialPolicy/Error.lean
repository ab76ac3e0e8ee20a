import ConfidentialPolicy.Text.Digits

namespace ConfidentialPolicy

inductive Fault where
  | notObject
  | notString
  | notBool
  | notList
  | notStrings
  | notInts
  | notCommand
  | missing
  | nullOrMissing
  | notFound
  | empty
  | incorrect
  | unknownStrategy (name : String)
  | unknownMount (known : List String)
  | notAbsolute (path : String)
  | reserved (name : String)
  | noSvn
  | notImport
  | noGroup (type : String)
  | noGroupAt (position : Nat)
  | notObjects
deriving DecidableEq, Repr

def Fault.message : Fault → String
  | .notObject => "must be an object"
  | .notString => "must be a string"
  | .notBool => "can only be a boolean value"
  | .notList => "must be a list"
  | .notStrings => "can only be a list of strings"
  | .notInts => "can only be a list of integers"
  | .notCommand => "must be list of Strings"
  | .missing => "is empty or can not be found"
  | .nullOrMissing => "is null or can not be found"
  | .notFound => "can not be found"
  | .empty => "is empty"
  | .incorrect => "is incorrect"
  | .unknownStrategy name => "unknown strategy: " ++ name ++ " (expected string or re2)"
  | .unknownMount known => "can only be following values: " ++ String.intercalate "," known
  | .notAbsolute path => "with value: " ++ path ++ " is not absolute path"
  | .reserved name => "'" ++ name ++ "' is reserved for container group policies"
  | .noSvn => "declares no svn and no minimum svn was given"
  | .notImport => "is not a fragment import"
  | .noGroup type => "contains no " ++ type ++ " resource"
  | .noGroupAt position => "has no container group at position " ++ Text.decimal position
  | .notObjects => "is not a list of objects"

inductive IoFault where
  | notFound
  | notDirectory
  | isDirectory
  | nameTooLong
  | notUtf8
  | zeroInName
  | zeroInCall
deriving DecidableEq, Repr

def IoFault.message : IoFault → String
  | .notFound => "No such file or directory (os error 2)"
  | .notDirectory => "Not a directory (os error 20)"
  | .isDirectory => "Is a directory (os error 21)"
  | .nameTooLong => "File name too long (os error 36)"
  | .notUtf8 => "stream did not contain valid UTF-8"
  | .zeroInName => "file name contained an unexpected NUL byte"
  | .zeroInCall => "nul byte found in provided data"

inductive PolicyError where
  | field (path : String) (fault : Fault)
  | notBase64
  | notUtf8
  | inputNotJson
  | badSidecarTable
  | policyIsJson
  | malformed (reason : String)
  | unresolvable (reason : String)
  | image (reason : String)
  | noMarker (marker : String)
  | notAList (marker : String) (found : Char)
  | unbalanced (marker : String)
  | scan (reason : String)
  | badRegex
  | badYaml
  | io (fault : IoFault)
  | outOfRange (length index : Nat)
deriving DecidableEq, Repr

inductive ErrorKind where
  | malformedInput
  | unresolvableReference
  | imageResolution
  | scan
  | regex
  | io
  | yaml
  | outOfRange
deriving DecidableEq, Repr

namespace PolicyError

def kind : PolicyError → ErrorKind
  | .field .. | .notBase64 | .notUtf8 | .inputNotJson | .badSidecarTable | .policyIsJson
  | .malformed _ => .malformedInput
  | .unresolvable _ => .unresolvableReference
  | .image _ => .imageResolution
  | .noMarker _ | .notAList .. | .unbalanced _ | .scan _ => .scan
  | .badRegex => .regex
  | .badYaml => .yaml
  | .io _ => .io
  | .outOfRange .. => .outOfRange

def reason : PolicyError → String
  | .field path fault => "field [" ++ path ++ "] " ++ fault.message
  | .notBase64 => "policy is not valid base64"
  | .notUtf8 => "policy is not valid utf-8"
  | .inputNotJson => "input is not valid JSON"
  | .badSidecarTable => "baseline sidecar table is invalid"
  | .policyIsJson => "existing policy in the template is JSON, expected rego text"
  | .malformed reason | .unresolvable reason | .image reason | .scan reason => reason
  | .noMarker marker => "marker '" ++ marker ++ "' not found"
  | .notAList marker found =>
    "expected '[' after '" ++ marker ++ "', found '" ++ String.singleton found ++ "'"
  | .unbalanced marker => "unbalanced brackets after '" ++ marker ++ "'"
  | .badRegex => "the pattern can not be read"
  | .badYaml => "the text can not be read"
  | .io fault => fault.message
  | .outOfRange length index =>
    "the len is " ++ Text.decimal length ++ " but the index is " ++ Text.decimal index

def message (e : PolicyError) : String :=
  (match e.kind with
    | .malformedInput => "malformed input: "
    | .unresolvableReference => "unresolvable reference: "
    | .imageResolution => "image could not be resolved: "
    | .scan => "policy text could not be scanned: "
    | .regex => "invalid regex: "
    | .io => "io error: "
    | .yaml => "yaml error: "
    | .outOfRange => "index out of bounds: ") ++ e.reason

end PolicyError

abbrev Checked := Except PolicyError

end ConfidentialPolicy

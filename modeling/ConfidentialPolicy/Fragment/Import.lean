import ConfidentialPolicy.Fields
import ConfidentialPolicy.Options
import ConfidentialPolicy.Record

namespace ConfidentialPolicy

structure FragmentImport where
  feed : String
  issuer : String
  minimumSvn : UInt64
  includes : List String
deriving DecidableEq, Repr

namespace FragmentImport

def allParts : List String := ["containers", "fragments"]

def infrastructure (minimumSvn : UInt64) : FragmentImport where
  feed := "mcr.microsoft.com/aci/aci-cc-infra-fragment"
  issuer :=
    "did:x509:0:sha256:I__iuL25oXEVFdTP_aBLx_eT1RPHbCQ_ECBQfYZpt9s::eku:1.3.6.1.4.1.311.76.59.1.3"
  minimumSvn
  includes := allParts

def svn? : Json → Option UInt64
  | .str s => Text.wordOf? s.toList
  | v => v.word?

def fieldNames : List String := ["feed", "issuer", "minimum_svn", "includes"]

/-- The fields of an import; keys may be in any letter case, and the first spelling counts. -/
def record? : Json → Option (Record Json)
  | .obj ms => some (fieldNames.map (Fields.find? ⟨ms⟩))
  | .arr vs => Record.ofItems? fieldNames vs
  | _ => none

def ofRecord? (r : Record Json) : Option FragmentImport := do
  let feed ← r.field? 0 Json.str?
  let issuer ← r.field? 1 Json.str?
  let minimumSvn ← r.field? 2 svn?
  let includes ← r.fieldOr? 3 [] Json.strings?
  pure { feed, issuer, minimumSvn, includes }

def ofJson (v : Json) : Checked FragmentImport :=
  match (record? v).bind ofRecord? with
  | some i => .ok i
  | none => .error (.field "fragments" .notImport)

def listOfJson (vs : List Json) : Checked (List FragmentImport) := vs.mapM ofJson

def svnText (i : FragmentImport) : String := Text.decimal i.minimumSvn.toNat

def toJson (i : FragmentImport) : Json :=
  .object [("feed", .str i.feed), ("includes", .ofStrings i.includes), ("issuer", .str i.issuer),
    ("minimum_svn", .str i.svnText)]

def toJsonDeclared (i : FragmentImport) : Json :=
  .obj [("feed", .str i.feed), ("issuer", .str i.issuer), ("minimum_svn", .str i.svnText),
    ("includes", .ofStrings i.includes)]

def listToJson (is : List FragmentImport) : Json := .arr (is.map toJson)

def defaults (options : Options) : List FragmentImport :=
  [infrastructure (options.infrastructureSvn.getD 1)]

end FragmentImport

end ConfidentialPolicy

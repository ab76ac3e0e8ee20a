import ConfidentialPolicy.Fragment.Import
import ConfidentialPolicy.PolicyText.Declaration

namespace ConfidentialPolicy

structure SigningRequest where
  fragmentPath : String
  key : String
  chain : String
  feed : String
  issuer : String
  algorithm : String
deriving DecidableEq, Repr

structure Signer where
  createIssuer : String → Checked String
  sign : SigningRequest → Checked String

structure Registry where
  push : String → String → Checked Unit

inductive PublishCall where
  | createIssuer (chain : String)
  | sign (request : SigningRequest)
  | push (feed signed : String)
deriving DecidableEq, Repr

structure Published (α : Type) where
  result : Checked α
  calls : List PublishCall

/-- The import that trusts a fragment, at its own version unless another one is given. -/
def generateImport (signer : Signer) (text feed chain : String) (minimumSvn : Option UInt64) :
    Published FragmentImport :=
  match minimumSvn.or (PolicyText.svn? text) with
  | none => ⟨.error (.field "fragment" .noSvn), []⟩
  | some svn =>
    ⟨(signer.createIssuer chain).map fun issuer ↦ ⟨feed, issuer, svn, FragmentImport.allParts⟩,
      [.createIssuer chain]⟩

structure PublishRequest where
  fragmentPath : String
  key : String
  chain : String
  feed : String
  algorithm : String
  push : Bool
deriving DecidableEq, Repr

def PublishRequest.toSign (r : PublishRequest) (issuer : String) : SigningRequest :=
  ⟨r.fragmentPath, r.key, r.chain, r.feed, issuer, r.algorithm⟩

/-- Signs a fragment and pushes it if asked to; gives the path of the signed fragment. -/
def publish (signer : Signer) (registry : Option Registry) (r : PublishRequest) :
    Published String :=
  match signer.createIssuer r.chain with
  | .error e => ⟨.error e, [.createIssuer r.chain]⟩
  | .ok issuer =>
    let request := r.toSign issuer
    match signer.sign request with
    | .error e => ⟨.error e, [.createIssuer r.chain, .sign request]⟩
    | .ok signed =>
      if r.push then match registry with
        | none =>
          ⟨.error (.unresolvable "push requested but no registry is configured"),
            [.createIssuer r.chain, .sign request]⟩
        | some registry =>
          ⟨(registry.push r.feed signed).map fun _ ↦ signed,
            [.createIssuer r.chain, .sign request, .push r.feed signed]⟩
      else ⟨.ok signed, [.createIssuer r.chain, .sign request]⟩

end ConfidentialPolicy

import ConfidentialPolicy.Document
import ConfidentialPolicy.PolicyText.Declaration
import ConfidentialPolicy.PolicyText.Lists

namespace ConfidentialPolicy

structure FoundFragment where
  feed : String
  text : String
deriving DecidableEq, Repr

structure Discovery where
  attached : String → Checked (List FoundFragment)
  standalone : List FragmentImport → Checked (List FoundFragment)

inductive DiscoveryCall where
  | image (image : String)
  | standalone (imports : List FragmentImport)
deriving DecidableEq, Repr

/-- What became of a fragment, or of a question that could not be answered. -/
inductive Decision where
  | accepted (feed : String) (svn : UInt64)
  | untrusted (feed : String)
  | tooOld (feed : String) (svn minimumSvn : UInt64)
  | missingSvn (feed : String)
  | unavailable (source : String) (reason : PolicyError)
deriving DecidableEq, Repr

structure Resolution where
  inline : List Container
  covered : List Container
  fragmentContainers : List Json
  decisions : List Decision
  calls : List DiscoveryCall
deriving DecidableEq, Repr

namespace Resolution

/-- The decision on a fragment, given the imports that are left. -/
def judge (imports : List FragmentImport) (f : FoundFragment) : Decision :=
  match imports.find? (·.feed == f.feed) with
  | none => .untrusted f.feed
  | some i => match PolicyText.svn? f.text with
    | none => .missingSvn f.feed
    | some svn =>
      if svn < i.minimumSvn then .tooOld f.feed svn i.minimumSvn else .accepted f.feed svn

structure Progress where
  imports : List FragmentImport
  accepted : List String
  decisions : List Decision
  calls : List DiscoveryCall
deriving DecidableEq, Repr

namespace Progress

def start (imports : List FragmentImport) : Progress := ⟨imports, [], [], []⟩

/-- Judges a fragment; acceptance uses up the first import of its feed. -/
def take (p : Progress) (f : FoundFragment) : Progress :=
  let d := judge p.imports f
  match d with
  | .accepted .. =>
    { p with
      imports := p.imports.eraseP (·.feed == f.feed)
      accepted := p.accepted ++ [f.text]
      decisions := p.decisions ++ [d] }
  | _ => { p with decisions := p.decisions ++ [d] }

def answer (p : Progress) (call : DiscoveryCall) (source : String)
    (found : Checked (List FoundFragment)) : Progress :=
  let p := { p with calls := p.calls ++ [call] }
  match found with
  | .ok fs => fs.foldl take p
  | .error e => { p with decisions := p.decisions ++ [.unavailable source e] }

def askImage (d : Discovery) (p : Progress) (image : String) : Progress :=
  p.answer (.image image) image (d.attached image)

def askStandalone (d : Discovery) (p : Progress) : Progress :=
  if p.imports = [] then p
  else p.answer (.standalone p.imports) "standalone" (d.standalone p.imports)

end Progress

def recordsOf (text : String) : List Json × List Decision :=
  match PolicyText.containers text with
  | .ok records => (records, [])
  | .error e => ([], [.unavailable "fragment" e])

/-- Fragments attached to the images come first, then those on the feeds of the imports that are
left. Containers whose id occurs in an accepted fragment are covered. -/
def resolve (d : Discovery) (containers : List Container) (imports : List FragmentImport) :
    Resolution :=
  let asked := (Container.images containers).foldl (Progress.askImage d) (.start imports)
  let p := asked.askStandalone d
  let fragmentContainers := p.accepted.flatMap (recordsOf · |>.1)
  let ids := fragmentContainers.filterMap recordId?
  { inline := containers.filter (·.id ∉ ids)
    covered := containers.filter (·.id ∈ ids)
    fragmentContainers
    decisions := p.decisions ++ p.accepted.flatMap (recordsOf · |>.2)
    calls := p.calls }

def coveredIds (r : Resolution) : List String :=
  KeyMap.keys (KeyMap.ofList (r.covered.map fun c ↦ (c.id, ())))

end Resolution

end ConfidentialPolicy

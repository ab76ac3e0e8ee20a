import ConfidentialPolicy.Files.Basic
import ConfidentialPolicy.Fragment.Resolution

namespace ConfidentialPolicy

structure StoredFragment where
  feed : String
  path : String
deriving DecidableEq, Repr

structure FragmentIndex where
  attached : KeyMap (List StoredFragment)
  standalone : KeyMap String
deriving DecidableEq, Repr

namespace FragmentIndex

def stored? (v : Written) : Option StoredFragment := do
  let r ← Record.ofWritten? ["feed", "path"] v
  some ⟨← r.field? 0 Written.str?, ← r.field? 1 Written.str?⟩

def ofText? (text : String) : Option FragmentIndex := do
  let r ← Record.ofWritten? ["image_attached", "standalone"] (← Json.readWritten? text.toList)
  let attached ← r.fieldOr? 0 [] (Written.mapOf? fun v ↦ v.items?.bind (·.mapM stored?))
  let standalone ← r.fieldOr? 1 [] (Written.mapOf? Written.str?)
  some { attached, standalone }

def paths (i : FragmentIndex) : List String :=
  i.attached.flatMap (fun e ↦ e.2.map (·.path)) ++ i.standalone.map (·.2)

end FragmentIndex

structure FragmentStore where
  directory : String
  index : FragmentIndex
deriving DecidableEq, Repr

namespace FragmentStore

def paths (s : FragmentStore) : List String := s.index.paths.map (Path.join s.directory)

def read (s : FragmentStore) (files : Files) (path : String) : Checked String :=
  (files.read (Path.join s.directory path)).mapError .io

def fetch (s : FragmentStore) (files : Files) (feed path : String) : Checked FoundFragment :=
  (s.read files path).map fun text ↦ ⟨feed, text⟩

/-- Looks fragments up in a store; the first file that can not be read stops it. -/
def discovery (s : FragmentStore) (files : Files) : Discovery where
  attached image :=
    ((KeyMap.get? s.index.attached image).getD []).mapM fun f ↦ s.fetch files f.feed f.path
  standalone imports :=
    (imports.filterMap fun i ↦ (KeyMap.get? s.index.standalone i.feed).map (i.feed, ·)).mapM
      fun f ↦ s.fetch files f.1 f.2

end FragmentStore

end ConfidentialPolicy

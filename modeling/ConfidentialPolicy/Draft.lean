import ConfidentialPolicy.Document

namespace ConfidentialPolicy

/-- A container with its record, the id included, if that is kept. -/
structure Draft where
  container : Container
  kept : Option Json := none
deriving DecidableEq, Repr

namespace Draft

/-- A record that was kept does not outlive an edit. -/
def edit (d : Draft) (e : ContainerEdit) : Draft := { container := d.container.edit e }

def fullRecord (d : Draft) : Json := d.kept.getD (d.container.record false)

def record (d : Draft) (omitId : Bool) : Json × Draft :=
  (if omitId then d.fullRecord.erase "id" else d.fullRecord, { d with kept := some d.fullRecord })

@[simp]
theorem container_record (d : Draft) (omitId : Bool) :
    (d.record omitId).2.container = d.container := rfl

end Draft

structure DocumentDraft where
  containers : List Draft
  fragments : List FragmentImport
  pause : Option Draft := none
deriving DecidableEq, Repr

namespace DocumentDraft

def document (d : DocumentDraft) : Document :=
  ⟨d.containers.map (·.container), d.fragments, d.pause.map (·.container)⟩

def ofDocument (d : Document) : DocumentDraft :=
  ⟨d.containers.map ({ container := · }), d.fragments, d.pause.map ({ container := · })⟩

def setContainers (d : DocumentDraft) (containers : List Draft) : DocumentDraft :=
  { d with containers }

def setFragments (d : DocumentDraft) (fragments : List FragmentImport) : DocumentDraft :=
  { d with fragments }

def withPause (d : DocumentDraft) : DocumentDraft :=
  { d with pause := some { container := pauseContainer } }

def editAt (d : DocumentDraft) (i : Nat) (e : ContainerEdit) : DocumentDraft :=
  { d with containers := d.containers.modify i (·.edit e) }

def recordAt? (d : DocumentDraft) (i : Nat) (omitId : Bool) : Option (Json × DocumentDraft) :=
  (d.containers[i]?).map fun c ↦
    ((c.record omitId).1, { d with containers := d.containers.set i (c.record omitId).2 })

def records (d : DocumentDraft) (omitId : Bool) : List Json × DocumentDraft :=
  let declared := d.containers.map (·.record omitId)
  let pause := d.pause.map (·.record true)
  (declared.map (·.1) ++ pause.toList.map (·.1),
    { d with containers := declared.map (·.2), pause := pause.map (·.2) })

def render (d : DocumentDraft) (r : Rendering) (omitId : Bool) : Checked String × DocumentDraft :=
  let (records, kept) := d.records omitId
  (r.text (FragmentImport.listToJson d.fragments) (.arr records), kept)

@[simp]
theorem document_records (d : DocumentDraft) (omitId : Bool) :
    (d.records omitId).2.document = d.document := by
  simp [records, document, Function.comp_def]

end DocumentDraft

end ConfidentialPolicy

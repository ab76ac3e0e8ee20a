import ConfidentialPolicy.Draft

namespace ConfidentialPolicy

inductive Shown where
  | json (value : Json)
  | records (records : List Json)
  | text (text : Checked String)

abbrev Stepper (σ ρ : Type) := σ → ρ → σ × Option Shown

namespace Stepper

variable {σ ρ : Type}

def atPosition (step : Stepper σ ρ) (i : Nat) : Stepper (List σ) ρ := fun states s ↦
  match states[i]? with
  | none => (states, none)
  | some x => (states.set i (step x s).1, (step x s).2)

def run (step : Stepper σ ρ) (x : σ) : List ρ → σ × List (Option Shown)
  | [] => (x, [])
  | s :: steps =>
    let rest := run step (step x s).1 steps
    (rest.1, (step x s).2 :: rest.2)

end Stepper

inductive ContainerStep where
  | edit (e : ContainerEdit)
  | record (omitId : Bool)
deriving DecidableEq, Repr

def Container.step (c : Container) : ContainerStep → Container × Option Shown
  | .edit e => (c.edit e, none)
  | .record omitId => (c, some (.json (c.record omitId)))

def Draft.step (d : Draft) : ContainerStep → Draft × Option Shown
  | .edit e => (d.edit e, none)
  | .record omitId => ((d.record omitId).2, some (.json (d.record omitId).1))

inductive DocumentStep where
  | edit (i : Nat) (e : ContainerEdit)
  | record (i : Nat) (omitId : Bool)
  | setFragments (fragments : List FragmentImport)
  | withPause
  | imports
  | records (omitId : Bool)
  | render (r : Rendering) (omitId : Bool)
deriving DecidableEq, Repr

def Document.step (d : Document) : DocumentStep → Document × Option Shown
  | .edit i e => ({ d with containers := d.containers.modify i (·.edit e) }, none)
  | .record i omitId => (d, d.containers[i]?.map fun c ↦ .json (c.record omitId))
  | .setFragments fragments => ({ d with fragments }, none)
  | .withPause => (d.withPause, none)
  | .imports => (d, some (.json d.fragmentsJson))
  | .records omitId => (d, some (.records (d.records omitId)))
  | .render r omitId => (d, some (.text (d.render r omitId)))

def DocumentDraft.step (d : DocumentDraft) : DocumentStep → DocumentDraft × Option Shown
  | .edit i e => (d.editAt i e, none)
  | .record i omitId => match d.recordAt? i omitId with
    | none => (d, none)
    | some (record, d) => (d, some (.json record))
  | .setFragments fragments => (d.setFragments fragments, none)
  | .withPause => (d.withPause, none)
  | .imports => (d, some (.json (FragmentImport.listToJson d.fragments)))
  | .records omitId => ((d.records omitId).2, some (.records (d.records omitId).1))
  | .render r omitId => ((d.render r omitId).2, some (.text (d.render r omitId).1))

structure Desk where
  drafts : List Draft
  documents : List DocumentDraft
deriving DecidableEq, Repr

structure Contents where
  containers : List Container
  documents : List Document
deriving DecidableEq, Repr

/-- A step of what is at hand. What a document takes in or gives out is a copy. -/
inductive DeskStep where
  | build (raw : Json) (role : Role) (options : Options)
  | copy (i : Nat)
  | container (i : Nat) (s : ContainerStep)
  | compose (picks : List Nat) (fragments : List FragmentImport)
  | copyDocument (j : Nat)
  | document (j : Nat) (s : DocumentStep)
  | setContainers (j : Nat) (picks : List Nat)
  | replace (j i : Nat) (pick : Nat)
  | takeOut (j i : Nat)
deriving DecidableEq, Repr

def pickFrom {α : Type} (l : List α) (picks : List Nat) : List α := picks.filterMap (l[·]?)

namespace Contents

def empty : Contents := ⟨[], []⟩

def step (c : Contents) : DeskStep → Contents × Option Shown
  | .build raw role options =>
    ({ c with containers := c.containers ++ (Container.ofSpec raw role options).toOption.toList },
      none)
  | .copy i => ({ c with containers := c.containers ++ c.containers[i]?.toList }, none)
  | .container i s =>
    let (containers, shown) := Stepper.atPosition Container.step i c.containers s
    ({ c with containers }, shown)
  | .compose picks fragments =>
    let document : Document := ⟨pickFrom c.containers picks, fragments, none⟩
    ({ c with documents := c.documents ++ [document] }, none)
  | .copyDocument j => ({ c with documents := c.documents ++ c.documents[j]?.toList }, none)
  | .document j s =>
    let (documents, shown) := Stepper.atPosition Document.step j c.documents s
    ({ c with documents }, shown)
  | .setContainers j picks =>
    let replaced (d : Document) := { d with containers := pickFrom c.containers picks }
    ({ c with documents := c.documents.modify j replaced }, none)
  | .replace j i pick =>
    let replaced (d : Document) : Document :=
      { d with containers := d.containers.modify i fun old ↦ (c.containers[pick]?).getD old }
    ({ c with documents := c.documents.modify j replaced }, none)
  | .takeOut j i =>
    let taken := c.documents[j]?.bind (·.containers[i]?)
    ({ c with containers := c.containers ++ taken.toList }, none)

end Contents

namespace Desk

def empty : Desk := ⟨[], []⟩

def contents (d : Desk) : Contents :=
  ⟨d.drafts.map (·.container), d.documents.map (·.document)⟩

def step (d : Desk) : DeskStep → Desk × Option Shown
  | .build raw role options =>
    let built := (Container.ofSpec raw role options).toOption.map ({ container := · : Draft })
    ({ d with drafts := d.drafts ++ built.toList }, none)
  | .copy i => ({ d with drafts := d.drafts ++ d.drafts[i]?.toList }, none)
  | .container i s =>
    let (drafts, shown) := Stepper.atPosition Draft.step i d.drafts s
    ({ d with drafts }, shown)
  | .compose picks fragments =>
    let document : DocumentDraft := ⟨pickFrom d.drafts picks, fragments, none⟩
    ({ d with documents := d.documents ++ [document] }, none)
  | .copyDocument j => ({ d with documents := d.documents ++ d.documents[j]?.toList }, none)
  | .document j s =>
    let (documents, shown) := Stepper.atPosition DocumentDraft.step j d.documents s
    ({ d with documents }, shown)
  | .setContainers j picks =>
    ({ d with documents := d.documents.modify j (·.setContainers (pickFrom d.drafts picks)) }, none)
  | .replace j i pick =>
    let replaced (doc : DocumentDraft) : DocumentDraft :=
      { doc with containers := doc.containers.modify i fun old ↦ (d.drafts[pick]?).getD old }
    ({ d with documents := d.documents.modify j replaced }, none)
  | .takeOut j i =>
    let taken := d.documents[j]?.bind (·.containers[i]?)
    ({ d with drafts := d.drafts ++ taken.toList }, none)

def after (history : List DeskStep) : Desk := (Stepper.run step empty history).1

def shown (d : Desk) (steps : List DeskStep) : List (Option Shown) := (Stepper.run step d steps).2

end Desk

end ConfidentialPolicy

import ConfidentialPolicy.Desk

namespace ConfidentialPolicy

section Lists

variable {α β : Type} {l : List α} {i : Nat}

theorem forall_mem_set {P : α → Prop} {a : α} (hl : ∀ x ∈ l, P x) (ha : P a) :
    ∀ x ∈ l.set i a, P x := by
  intro x hx
  rcases List.mem_or_eq_of_mem_set hx with hx | rfl
  · exact hl x hx
  · exact ha

theorem forall_mem_modify {P : α → Prop} {f : α → α} (hl : ∀ x ∈ l, P x)
    (hf : ∀ x, P x → P (f x)) : ∀ x ∈ l.modify i f, P x := by
  intro x hx
  obtain ⟨j, hj⟩ := List.mem_iff_getElem?.mp hx
  rw [List.getElem?_modify] at hj
  obtain ⟨y, hy, rfl⟩ := Option.map_eq_some_iff.mp hj
  have hy := hl y (List.mem_of_getElem? hy)
  split
  · exact hf y hy
  · exact hy

theorem forall_mem_append_toList {P : α → Prop} {o : Option α} (hl : ∀ x ∈ l, P x)
    (ho : ∀ x ∈ o, P x) : ∀ x ∈ l ++ o.toList, P x :=
  List.forall_mem_append.mpr ⟨hl, fun x hx ↦ ho x (Option.mem_toList.mp hx)⟩

theorem map_modify {v : α → β} {f : α → α} {g : β → β} (h : ∀ x, v (f x) = g (v x)) :
    (l.modify i f).map v = (l.map v).modify i g := by
  apply List.ext_getElem?
  intro j
  simp only [List.getElem?_map, List.getElem?_modify]
  cases l[j]? with
  | none => rfl
  | some x =>
    by_cases hij : i = j
    · simp [hij, h]
    · simp [hij]

theorem map_pickFrom (v : α → β) (picks : List Nat) :
    (pickFrom l picks).map v = pickFrom (l.map v) picks := by
  simp [pickFrom, List.map_filterMap]

theorem forall_mem_pickFrom {P : α → Prop} (hl : ∀ x ∈ l, P x) (picks : List Nat) :
    ∀ x ∈ pickFrom l picks, P x := by
  intro x hx
  obtain ⟨n, -, hn⟩ := List.mem_filterMap.mp hx
  exact hl x (List.mem_of_getElem? hn)

end Lists

namespace Stepper

variable {σ τ ρ : Type} {P : σ → Prop} {v : σ → τ} {f : Stepper σ ρ} {g : Stepper τ ρ}

/-- Where `P` holds, a state shows what its view shows, and the view takes the same steps. -/
structure Follows (P : σ → Prop) (v : σ → τ) (f : Stepper σ ρ) (g : Stepper τ ρ) : Prop where
  keeps : ∀ x s, P x → P (f x s).1
  agrees : ∀ x s, P x → (v (f x s).1, (f x s).2) = g (v x) s

theorem atPosition_snd (f : Stepper σ ρ) (i : Nat) (xs : List σ) (s : ρ) :
    (f.atPosition i xs s).2 = xs[i]?.bind fun x ↦ (f x s).2 := by
  unfold Stepper.atPosition
  cases xs[i]? <;> rfl

theorem Follows.atPosition (h : Follows P v f g) (i : Nat) :
    Follows (∀ x ∈ ·, P x) (List.map v) (f.atPosition i) (g.atPosition i) where
  keeps xs s hxs := by
    unfold Stepper.atPosition
    cases hx : xs[i]? with
    | none => exact hxs
    | some x => exact forall_mem_set hxs (h.keeps x s (hxs x (List.mem_of_getElem? hx)))
  agrees xs s hxs := by
    unfold Stepper.atPosition
    rw [List.getElem?_map]
    cases hx : xs[i]? with
    | none => rfl
    | some x =>
      simp only [Option.map_some, List.map_set, ← h.agrees x s (hxs x (List.mem_of_getElem? hx))]

/-- A whole run shows what the view's run shows. -/
theorem Follows.run (h : Follows P v f g) (steps : List ρ) {x : σ} (hx : P x) :
    P (f.run x steps).1 ∧ (v (f.run x steps).1, (f.run x steps).2) = g.run (v x) steps := by
  induction steps generalizing x with
  | nil => exact ⟨hx, rfl⟩
  | cons s steps ih =>
    obtain ⟨hP, heq⟩ := ih (h.keeps x s hx)
    refine ⟨hP, ?_⟩
    simp only [Stepper.run, ← h.agrees x s hx, ← heq]

end Stepper

namespace Draft

/-- A kept record is the one that would be built afresh. -/
def Coherent (d : Draft) : Prop := ∀ record ∈ d.kept, record = d.container.record false

theorem Coherent.of_none (c : Container) : Coherent { container := c } := nofun

theorem Coherent.fullRecord {d : Draft} (h : d.Coherent) :
    d.fullRecord = d.container.record false := by
  unfold Draft.fullRecord
  cases hd : d.kept with
  | none => rfl
  | some record => exact h record hd

theorem Coherent.record {d : Draft} (h : d.Coherent) (omitId : Bool) :
    (d.record omitId).2.Coherent := by
  rintro record ⟨⟩
  exact h.fullRecord

theorem erase_record (c : Container) : (c.record false).erase "id" = c.record true := rfl

theorem Coherent.record_fst {d : Draft} (h : d.Coherent) (omitId : Bool) :
    (d.record omitId).1 = d.container.record omitId := by
  cases omitId with
  | false => exact h.fullRecord
  | true => rw [← erase_record, ← h.fullRecord]; rfl

theorem follows : Stepper.Follows Coherent (·.container) Draft.step Container.step where
  keeps d s h := match s with
    | .edit e => .of_none _
    | .record omitId => h.record omitId
  agrees d s h := match s with
    | .edit e => rfl
    | .record omitId => by simp only [Draft.step, Container.step, container_record, h.record_fst]

end Draft

namespace DocumentDraft

structure Coherent (d : DocumentDraft) : Prop where
  containers : ∀ c ∈ d.containers, c.Coherent
  pause : ∀ c ∈ d.pause, c.Coherent

theorem Coherent.editAt {d : DocumentDraft} (h : d.Coherent) (i : Nat) (e : ContainerEdit) :
    (d.editAt i e).Coherent where
  containers := forall_mem_modify h.containers fun _ _ ↦ .of_none _
  pause := h.pause

theorem Coherent.withPause {d : DocumentDraft} (h : d.Coherent) : d.withPause.Coherent where
  containers := h.containers
  pause := by
    rintro c ⟨⟩
    exact .of_none _

theorem Coherent.records {d : DocumentDraft} (h : d.Coherent) (omitId : Bool) :
    (d.records omitId).2.Coherent where
  containers := by
    intro c hc
    obtain ⟨x, hx, rfl⟩ := List.mem_map.mp hc
    obtain ⟨b, hb, rfl⟩ := List.mem_map.mp hx
    exact (h.containers b hb).record omitId
  pause := by
    intro c hc
    obtain ⟨x, hx, rfl⟩ := Option.map_eq_some_iff.mp hc
    obtain ⟨b, hb, rfl⟩ := Option.map_eq_some_iff.mp hx
    exact (h.pause b hb).record true

theorem Coherent.records_fst {d : DocumentDraft} (h : d.Coherent) (omitId : Bool) :
    (d.records omitId).1 = d.document.records omitId := by
  have hdeclared : d.containers.map (fun c ↦ (c.record omitId).1) =
      d.containers.map (fun c ↦ c.container.record omitId) :=
    List.map_congr_left fun c hc ↦ (h.containers c hc).record_fst omitId
  have hpause : d.pause.map (fun c ↦ (c.record true).1) =
      d.pause.map (fun c ↦ c.container.record true) :=
    Option.map_congr fun c hc ↦ (h.pause c hc).record_fst true
  simp only [DocumentDraft.records, Document.records, document, List.map_map, Option.toList_map,
    Function.comp_def, hdeclared]
  rw [← Option.toList_map, ← Option.toList_map, hpause]

theorem Coherent.render_fst {d : DocumentDraft} (h : d.Coherent) (r : Rendering) (omitId : Bool) :
    (d.render r omitId).1 = d.document.render r omitId := by
  have htext : (d.render r omitId).1 =
      r.text (FragmentImport.listToJson d.fragments) (.arr (d.records omitId).1) := rfl
  rw [htext, h.records_fst]
  rfl

theorem document_editAt (d : DocumentDraft) (i : Nat) (e : ContainerEdit) :
    (d.editAt i e).document =
      { d.document with containers := d.document.containers.modify i (·.edit e) } := by
  have hedit : (d.containers.modify i (·.edit e)).map (·.container) =
      (d.containers.map (·.container)).modify i (·.edit e) :=
    map_modify fun _ ↦ rfl
  exact congrArg (Document.mk · d.fragments (d.pause.map (·.container))) hedit

theorem document_setRecorded {d : DocumentDraft} {i : Nat} {c : Draft}
    (hc : d.containers[i]? = some c) (omitId : Bool) :
    document { d with containers := d.containers.set i (c.record omitId).2 } = d.document := by
  have hset : (d.containers.map (·.container)).set i c.container =
      d.containers.map (·.container) := by
    obtain ⟨hi, rfl⟩ := List.getElem?_eq_some_iff.mp hc
    rw [← List.map_set, List.set_getElem_self]
  simp only [document, List.map_set, Draft.container_record, hset]

theorem step_record_of_none {d : DocumentDraft} {i : Nat} (hc : d.containers[i]? = none)
    (omitId : Bool) : d.step (.record i omitId) = (d, none) := by
  simp [DocumentDraft.step, recordAt?, hc]

theorem step_record_of_some {d : DocumentDraft} {i : Nat} {c : Draft}
    (hc : d.containers[i]? = some c) (omitId : Bool) :
    d.step (.record i omitId) =
      ({ d with containers := d.containers.set i (c.record omitId).2 },
        some (.json (c.record omitId).1)) := by
  simp [DocumentDraft.step, recordAt?, hc]

theorem follows : Stepper.Follows Coherent document DocumentDraft.step Document.step where
  keeps d s h := by
    cases s with
    | edit i e => exact h.editAt i e
    | record i omitId =>
      cases hc : d.containers[i]? with
      | none => rwa [step_record_of_none hc]
      | some c =>
        rw [step_record_of_some hc]
        have hrecord := (h.containers c (List.mem_of_getElem? hc)).record omitId
        exact ⟨forall_mem_set h.containers hrecord, h.pause⟩
    | setFragments fragments => exact ⟨h.containers, h.pause⟩
    | withPause => exact h.withPause
    | imports => exact h
    | records omitId => exact h.records omitId
    | render r omitId => exact h.records omitId
  agrees d s h := by
    cases s with
    | edit i e => exact congrArg (·, none) (document_editAt d i e)
    | record i omitId =>
      have hi : d.document.containers[i]? = d.containers[i]?.map (·.container) :=
        List.getElem?_map
      simp only [Document.step, hi]
      cases hc : d.containers[i]? with
      | none => rw [step_record_of_none hc]; rfl
      | some c =>
        have hshown := (h.containers c (List.mem_of_getElem? hc)).record_fst omitId
        simp only [step_record_of_some hc, document_setRecorded hc, hshown, Option.map_some]
    | setFragments fragments => rfl
    | withPause => rfl
    | imports => rfl
    | records omitId =>
      simp only [DocumentDraft.step, Document.step, document_records, h.records_fst]
    | render r omitId =>
      have hkept : (d.render r omitId).2.document = d.document := document_records d omitId
      simp only [DocumentDraft.step, Document.step, hkept, h.render_fst]

end DocumentDraft

namespace Desk

structure Coherent (d : Desk) : Prop where
  drafts : ∀ c ∈ d.drafts, c.Coherent
  documents : ∀ doc ∈ d.documents, doc.Coherent

theorem coherent_empty : empty.Coherent := ⟨nofun, nofun⟩

theorem Coherent.picks {d : Desk} (h : d.Coherent) (picks : List Nat) :
    ∀ c ∈ pickFrom d.drafts picks, c.Coherent :=
  forall_mem_pickFrom h.drafts picks

theorem Coherent.step {d : Desk} (h : d.Coherent) (s : DeskStep) : (d.step s).1.Coherent := by
  cases s with
  | build raw role options =>
    refine ⟨forall_mem_append_toList h.drafts fun c hc ↦ ?_, h.documents⟩
    obtain ⟨b, -, rfl⟩ := Option.map_eq_some_iff.mp hc
    exact .of_none b
  | copy i =>
    exact ⟨forall_mem_append_toList h.drafts fun c hc ↦ h.drafts c (List.mem_of_getElem? hc),
      h.documents⟩
  | container i s => exact ⟨(Draft.follows.atPosition i).keeps d.drafts s h.drafts, h.documents⟩
  | compose picks fragments =>
    refine ⟨h.drafts, List.forall_mem_append.mpr ⟨h.documents, ?_⟩⟩
    exact List.forall_mem_singleton.mpr ⟨h.picks picks, nofun⟩
  | copyDocument j =>
    exact ⟨h.drafts,
      forall_mem_append_toList h.documents fun c hc ↦ h.documents c (List.mem_of_getElem? hc)⟩
  | document j s =>
    exact ⟨h.drafts, (DocumentDraft.follows.atPosition j).keeps d.documents s h.documents⟩
  | setContainers j picks =>
    exact ⟨h.drafts, forall_mem_modify h.documents fun doc hdoc ↦ ⟨h.picks picks, hdoc.pause⟩⟩
  | replace j i pick =>
    refine ⟨h.drafts, forall_mem_modify h.documents fun doc hdoc ↦ ⟨?_, hdoc.pause⟩⟩
    refine forall_mem_modify hdoc.containers fun old hold ↦ ?_
    -- What stands there afterwards is another draft of the desk, or what stood there before.
    cases hc : d.drafts[pick]? with
    | none => exact hold
    | some c => exact h.drafts c (List.mem_of_getElem? hc)
  | takeOut j i =>
    refine ⟨forall_mem_append_toList h.drafts fun c hc ↦ ?_, h.documents⟩
    obtain ⟨doc, hdoc, hc⟩ := Option.bind_eq_some_iff.mp hc
    exact (h.documents doc (List.mem_of_getElem? hdoc)).containers c (List.mem_of_getElem? hc)

theorem contents_addDrafts (d : Desk) (more : Option Draft) :
    contents { d with drafts := d.drafts ++ more.toList } =
      { d.contents with
        containers := d.contents.containers ++ (more.map (·.container)).toList } := by
  simp [contents, Option.toList_map]

theorem contents_addDocuments (d : Desk) (more : Option DocumentDraft) :
    contents { d with documents := d.documents ++ more.toList } =
      { d.contents with
        documents := d.contents.documents ++ (more.map (·.document)).toList } := by
  simp [contents, Option.toList_map]

theorem contents_modifyDocument {f : DocumentDraft → DocumentDraft} {g : Document → Document}
    (hfg : ∀ doc, (f doc).document = g doc.document) (d : Desk) (j : Nat) :
    contents { d with documents := d.documents.modify j f } =
      { d.contents with documents := d.contents.documents.modify j g } := by
  have hmap : (d.documents.modify j f).map (·.document) =
      (d.documents.map (·.document)).modify j g := map_modify hfg
  simp only [contents, hmap]

theorem contents_step {d : Desk} (h : d.Coherent) (s : DeskStep) :
    ((d.step s).1.contents, (d.step s).2) = d.contents.step s := by
  -- A step changes the drafts or the documents only, so that each case comes down to a lemma about
  -- that part; the steps of one draft are followed at its position.
  cases s with
  | build raw role options =>
    refine congrArg (·, none) ((contents_addDrafts d _).trans ?_)
    rw [Option.map_map, Function.comp_def, Option.map_id']
  | copy i =>
    refine congrArg (·, none) ((contents_addDrafts d _).trans ?_)
    rw [← List.getElem?_map]
    rfl
  | container i s =>
    have hs := (Draft.follows.atPosition i).agrees d.drafts s h.drafts
    simp only [Desk.step, Contents.step, contents, ← hs]
  | compose picks fragments =>
    simp [Desk.step, Contents.step, contents, DocumentDraft.document, map_pickFrom]
  | copyDocument j =>
    refine congrArg (·, none) ((contents_addDocuments d _).trans ?_)
    rw [← List.getElem?_map]
    rfl
  | document j s =>
    have hs := (DocumentDraft.follows.atPosition j).agrees d.documents s h.documents
    simp only [Desk.step, Contents.step, contents, ← hs]
  | setContainers j picks =>
    refine congrArg (·, none) (contents_modifyDocument (fun doc ↦ ?_) d j)
    simp only [DocumentDraft.document, DocumentDraft.setContainers, contents, map_pickFrom]
  | replace j i pick =>
    refine congrArg (·, none) (contents_modifyDocument (fun doc ↦ ?_) d j)
    have hold (old : Draft) : ((d.drafts[pick]?).getD old).container =
        (d.contents.containers[pick]?).getD old.container := by
      simp only [contents, List.getElem?_map]
      cases d.drafts[pick]? <;> rfl
    have hmap : (doc.containers.modify i fun old ↦ (d.drafts[pick]?).getD old).map (·.container) =
        (doc.containers.map (·.container)).modify i
          fun old ↦ (d.contents.containers[pick]?).getD old := map_modify hold
    simp only [DocumentDraft.document, hmap]
  | takeOut j i =>
    refine congrArg (·, none) ((contents_addDrafts d _).trans ?_)
    have htaken : (d.documents[j]?.bind (·.containers[i]?)).map (·.container) =
        d.contents.documents[j]?.bind (·.containers[i]?) := by
      simp only [contents, List.getElem?_map]
      cases d.documents[j]? with
      | none => rfl
      | some doc => exact List.getElem?_map.symm
    rw [htaken]

theorem follows : Stepper.Follows Coherent contents step Contents.step where
  keeps _ s h := h.step s
  agrees _ s h := contents_step h s

theorem coherent_after (history : List DeskStep) : (after history).Coherent :=
  (follows.run history coherent_empty).1

/-- The fields at hand are those that the steps make of fields alone. -/
theorem contents_after (history : List DeskStep) :
    (after history).contents = (Stepper.run Contents.step .empty history).1 :=
  congrArg Prod.fst (follows.run history coherent_empty).2

theorem shown_eq {d : Desk} (h : d.Coherent) (steps : List DeskStep) :
    d.shown steps = (Stepper.run Contents.step d.contents steps).2 :=
  congrArg Prod.snd (follows.run steps h).2

/-- What is shown after a history is made of the fields that are at hand then, and these are not
changed by what was shown before. Where histories lead to the same fields, the same is shown. -/
structure FixedByContents (history : List DeskStep) : Prop where
  shown : ∀ s, ((after history).step s).2 = ((after history).contents.step s).2
  contents : (after history).contents = (Stepper.run Contents.step .empty history).1
  container : ∀ other i j,
    (after other).contents.containers[i]? = (after history).contents.containers[j]? →
      ∀ s, ((after other).step (.container i s)).2 = ((after history).step (.container j s)).2
  document : ∀ other i j,
    (after other).contents.documents[i]? = (after history).contents.documents[j]? →
      ∀ s, ((after other).step (.document i s)).2 = ((after history).step (.document j s)).2
  further : ∀ other, (after other).contents = (after history).contents →
    ∀ steps, (after other).shown steps = (after history).shown steps

theorem shown_after (history : List DeskStep) (s : DeskStep) :
    ((after history).step s).2 = ((after history).contents.step s).2 :=
  congrArg Prod.snd (contents_step (coherent_after history) s)

theorem fixedByContents (history : List DeskStep) : FixedByContents history where
  shown := shown_after history
  contents := contents_after history
  container other i j h s := by
    have hshown (d : Contents) (i : Nat) :
        (d.step (.container i s)).2 = d.containers[i]?.bind fun c ↦ (c.step s).2 :=
      Stepper.atPosition_snd Container.step i d.containers s
    rw [shown_after, shown_after, hshown, hshown, h]
  document other i j h s := by
    have hshown (d : Contents) (i : Nat) :
        (d.step (.document i s)).2 = d.documents[i]?.bind fun doc ↦ (doc.step s).2 :=
      Stepper.atPosition_snd Document.step i d.documents s
    rw [shown_after, shown_after, hshown, hshown, h]
  further other h steps := by
    rw [shown_eq (coherent_after other), shown_eq (coherent_after history), h]

def describedWeb : Json :=
  .object [("image", .str "web"), ("environmentVariables", .arr []),
    ("command", .ofStrings ["serve"])]

def plainHistory : List DeskStep :=
  [.build describedWeb .user {}, .copy 0, .compose [0, 1] [],
    .document 0 (.edit 0 (.command ["serve", "-v"]))]

def shownHistory : List DeskStep :=
  [.build describedWeb .user {}, .container 0 (.record false), .copy 0, .compose [0, 1] [],
    .document 0 (.records true), .document 0 (.edit 0 (.command ["serve", "-v"])),
    .document 0 (.record 0 true)]

/-- Other records are kept after the two histories, but the same is shown. -/
theorem shown_shownHistory :
    after shownHistory ≠ after plainHistory ∧
      (after shownHistory).contents = (after plainHistory).contents ∧
      ∀ steps, (after shownHistory).shown steps = (after plainHistory).shown steps := by
  have hcontents : (after shownHistory).contents = (after plainHistory).contents := by
    decide +kernel
  exact ⟨by decide +kernel, hcontents, (fixedByContents plainHistory).further shownHistory hcontents⟩

end Desk

end ConfidentialPolicy

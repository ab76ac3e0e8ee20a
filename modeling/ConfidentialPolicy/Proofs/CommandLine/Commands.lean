import ConfidentialPolicy.CommandLine.Run
import ConfidentialPolicy.Proofs.Checked

namespace ConfidentialPolicy.CommandLine

open Checked

namespace Attempt

variable {α β : Type}

@[simp]
theorem ofChecked_eq_ok_iff {c : Checked α} {a : α} : Attempt.ofChecked c = .ok a ↔ c = .ok a :=
  mapError_eq_ok_iff

def NotUsage (x : Attempt α) : Prop := x ≠ .error .usage

theorem notUsage_ok (a : α) : NotUsage (.ok a) := nofun

theorem NotUsage.bind {x : Attempt α} {f : α → Attempt β} (hx : x.NotUsage)
    (hf : ∀ a, (f a).NotUsage) : (x >>= f).NotUsage := by
  cases x with
  | error e => exact fun h ↦ hx (by cases h; rfl)
  | ok a => exact hf a

theorem NotUsage.map {x : Attempt α} (hx : x.NotUsage) (f : α → β) :
    Attempt.NotUsage (x.map f) := by
  cases x with
  | error e => exact fun h ↦ hx (by cases h; rfl)
  | ok a => exact notUsage_ok (f a)

theorem notUsage_mapError {ε : Type} {f : ε → CommandError} (hf : ∀ e, f e ≠ .usage)
    (x : Except ε α) : Attempt.NotUsage (x.mapError f) := by
  cases x with
  | error e => exact fun h ↦ hf e (Except.error.inj h)
  | ok a => exact notUsage_ok a

theorem notUsage_ofChecked (c : Checked α) : (Attempt.ofChecked c).NotUsage :=
  notUsage_mapError (f := .policy) (fun _ ↦ nofun) c

end Attempt

open Attempt

variable {s : Setup} {files : Files} {p : Plan}

theorem readText_eq_ok_iff {path text : String} :
    readText files path = .ok text ↔ files.read path = .ok text :=
  mapError_eq_ok_iff

theorem readTemplate_eq_ok_iff {path : String} {template : Json} :
    readTemplate files path = .ok template ↔
      ∃ text, files.read path = .ok text ∧ Json.parse? text = some template := by
  refine bind_eq_ok_iff.trans (exists_congr fun text ↦ ?_)
  rw [readText_eq_ok_iff]
  refine and_congr_right fun _ ↦ ?_
  split
  · next v hv => simp [hv]
  · next hv => simp [hv]

theorem notUsage_readText (path : String) : (readText files path).NotUsage :=
  notUsage_mapError (f := .file) (fun _ ↦ nofun) _

theorem notUsage_readSource (path : String) : (readSource files path).NotUsage :=
  notUsage_mapError (f := fun fault ↦ .policy (.io fault)) (fun _ ↦ nofun) _

theorem notUsage_readAs {α : Type} (path : String) (view : String → Option α) :
    (readAs files path view).NotUsage := by
  refine (notUsage_readText path).bind fun text ↦ ?_
  split <;> exact nofun

theorem notUsage_readInput (path : String) : (readInput files path).NotUsage :=
  (notUsage_readSource path).bind fun _ ↦ notUsage_ofChecked _

theorem notUsage_load (tools : Tools) (settings : Settings) :
    (Setup.load tools files settings).NotUsage := by
  have hsidecars (path : Option String) : (Setup.readSidecars files path).NotUsage := by
    cases path with
    | none => exact nofun
    | some path => exact (notUsage_readSource path).bind fun _ ↦ notUsage_ofChecked _
  have hlayers (path : Option String) : (Setup.readLayers files path).NotUsage := by
    cases path with
    | none => exact nofun
    | some path => exact (notUsage_readAs path _).map _
  have hstore (path : Option String) : (Setup.readStore files path).NotUsage := by
    cases path with
    | none => exact nofun
    | some path => exact (notUsage_readAs path _).map _
  exact (hsidecars _).bind fun _ ↦ (hlayers _).bind fun _ ↦ (hstore _).bind fun _ ↦ nofun

namespace Plan

def Settled (p : Plan) : Prop := p.write = none ∨ ∃ a, p.answer = .ok a

variable {obstacles : Obstacles}

theorem commit_of_write_none (h : p.write = none) :
    p.commit files obstacles = ⟨p.answer, files⟩ := by
  simp only [commit, h]

theorem writeFile_eq_ok {after : Files} {path content : String}
    (h : writeFile files obstacles path content = .ok after) :
    files.write path content = .ok after := by
  unfold writeFile at h
  split at h
  · cases h
  · exact h

/-- What a plan comes to: its answer, or a failed write that leaves the files alone. -/
theorem commit_cases (p : Plan) (files : Files) (obstacles : Obstacles) :
    (p.write = none ∧ p.commit files obstacles = ⟨p.answer, files⟩) ∨
    (∃ path content after, p.write = some (path, content) ∧
      files.write path content = .ok after ∧ p.commit files obstacles = ⟨p.answer, after⟩) ∨
    ∃ fault, p.write ≠ none ∧ p.commit files obstacles = ⟨.error (.file fault), files⟩ := by
  cases hw : p.write with
  | none => exact .inl ⟨rfl, commit_of_write_none hw⟩
  | some w =>
    obtain ⟨path, content⟩ := w
    cases hf : writeFile files obstacles path content with
    | ok after =>
      refine .inr (.inl ⟨path, content, after, rfl, writeFile_eq_ok hf, ?_⟩)
      simp only [commit, hw, hf]
    | error fault =>
      refine .inr (.inr ⟨fault, nofun, ?_⟩)
      simp only [commit, hw, hf]

/-- A settled plan that ends in an error has changed no file. -/
theorem Settled.files_commit (h : p.Settled) {e : CommandError}
    (he : (p.commit files obstacles).answer = .error e) :
    (p.commit files obstacles).files = files := by
  rcases commit_cases p files obstacles with ⟨-, hc⟩ | ⟨path, content, after, hw, -, hc⟩ |
    ⟨fault, -, hc⟩
  · rw [hc]
  · rw [hc] at he
    rcases h with h | ⟨a, ha⟩
    · rw [hw] at h
      cases h
    · rw [ha] at he
      cases he
  · rw [hc]

/-- A plan that is answered has been carried out. -/
theorem answer_of_commit_eq_ok {a : Answer} (h : (p.commit files obstacles).answer = .ok a) :
    p.answer = .ok a := by
  rcases commit_cases p files obstacles with ⟨-, hc⟩ | ⟨path, content, after, -, -, hc⟩ |
    ⟨fault, -, hc⟩
  · rwa [hc] at h
  · rwa [hc] at h
  · rw [hc] at h
    cases h

theorem write_of_commit_eq_ok {a : Answer} {path content : String}
    (hw : p.write = some (path, content)) (h : (p.commit files obstacles).answer = .ok a) :
    files.write path content = .ok (p.commit files obstacles).files := by
  rcases commit_cases p files obstacles with ⟨hnone, -⟩ | ⟨path', content', after, hw', hok, hc⟩ |
    ⟨fault, -, hc⟩
  · rw [hw] at hnone
    cases hnone
  · rw [hw] at hw'
    cases hw'
    rwa [hc]
  · rw [hc] at h
    cases h

theorem notUsage_commit (h : p.answer.NotUsage) : (p.commit files obstacles).answer.NotUsage := by
  rcases commit_cases p files obstacles with ⟨-, hc⟩ | ⟨path, content, after, -, -, hc⟩ |
    ⟨fault, -, hc⟩
  · rwa [hc]
  · rwa [hc]
  · rw [hc]
    exact nofun

end Plan

theorem generate_eq_ok {r : GenerateRequest} (h : generate s files r = .ok p) :
    ∃ input compilation output, readInput files r.input = .ok input ∧
      (s.compiler files r.infrastructureSvn).compile input = .ok compilation ∧
      p.answer = .ok ⟨output, .clean⟩ ∧
      ∀ path, r.template = some path → ∃ template updated,
        readTemplate files path = .ok template ∧
        Template.inject template r.group (compilation.document.serialize .encoded r.omitId) =
          .ok updated ∧
        p.write = some (path, updated.pretty) := by
  unfold generate at h
  split at h
  · cases h
  · next hformat =>
    obtain ⟨input, hinput, h⟩ := bind_eq_ok_iff.mp h
    obtain ⟨compilation, hcompilation, h⟩ := bind_eq_ok_iff.mp h
    replace hcompilation := ofChecked_eq_ok_iff.mp hcompilation
    dsimp only at h
    split at h
    · next path htemplate =>
      obtain ⟨template, hread, h⟩ := bind_eq_ok_iff.mp h
      obtain ⟨updated, hupdated, h⟩ := bind_eq_ok_iff.mp h
      cases h
      -- Any other format was turned down together with a template.
      have hencoded : r.format = .encoded := by
        by_contra hne
        exact hformat ⟨by rw [htemplate]; rfl, hne⟩
      rw [hencoded] at hupdated
      refine ⟨input, compilation, _, hinput, hcompilation, rfl, fun path' hpath ↦ ?_⟩
      rw [htemplate] at hpath
      cases hpath
      exact ⟨template, updated, hread, ofChecked_eq_ok_iff.mp hupdated, rfl⟩
    · next htemplate =>
      cases h
      exact ⟨input, compilation, _, hinput, hcompilation, rfl, fun path hpath ↦ by simp_all⟩
    · next htemplate =>
      cases h
      exact ⟨input, compilation, _, hinput, hcompilation, rfl, fun path hpath ↦ by simp_all⟩

theorem fragment_eq_ok {r : FragmentRequest} (h : fragment s files r = .ok p) :
    ∃ report : Option String → String,
      p.answer = (signFragment s r).map fun signed ↦ ⟨report signed, .clean⟩ := by
  obtain ⟨input, -, h⟩ := bind_eq_ok_iff.mp h
  obtain ⟨document, -, h⟩ := bind_eq_ok_iff.mp h
  obtain ⟨text, -, h⟩ := bind_eq_ok_iff.mp h
  cases h
  exact ⟨_, rfl⟩

theorem importOf_eq_ok {r : ImportRequest} (h : importOf s files r = .ok p) :
    ∃ output, p.answer = .ok ⟨output, .clean⟩ := by
  obtain ⟨text, -, h⟩ := bind_eq_ok_iff.mp h
  obtain ⟨i, -, h⟩ := bind_eq_ok_iff.mp h
  split at h
  · cases h
    exact ⟨_, rfl⟩
  · obtain ⟨imports, -, h⟩ := bind_eq_ok_iff.mp h
    cases h
    exact ⟨_, rfl⟩

theorem checkSidecars_eq_ok {r : CheckRequest} (h : checkSidecars s files r = .ok p) :
    ∃ output verdict, p = .report output verdict := by
  obtain ⟨input, -, h⟩ := bind_eq_ok_iff.mp h
  obtain ⟨document, -, h⟩ := bind_eq_ok_iff.mp h
  obtain ⟨report, -, h⟩ := bind_eq_ok_iff.mp h
  cases h
  exact ⟨_, _, rfl⟩

theorem checkSidecars_eq_report_iff {r : CheckRequest} {verdict : Verdict} :
    (∃ output, checkSidecars s files r = .ok (.report output verdict)) ↔
      ∃ input document report, readInput files r.input = .ok input ∧
        ((s.compiler files none).compileUnresolved input).result = .ok document ∧
        SidecarReport.check document s.options.sidecars = .ok report ∧
        verdictOf report.isValid = verdict := by
  constructor
  · rintro ⟨output, h⟩
    obtain ⟨input, hinput, h⟩ := bind_eq_ok_iff.mp h
    obtain ⟨document, hdocument, h⟩ := bind_eq_ok_iff.mp h
    obtain ⟨report, hreport, h⟩ := bind_eq_ok_iff.mp h
    cases h
    exact ⟨input, document, report, hinput, ofChecked_eq_ok_iff.mp hdocument,
      ofChecked_eq_ok_iff.mp hreport, rfl⟩
  · rintro ⟨input, document, report, hinput, hdocument, hreport, rfl⟩
    exact ⟨sidecarText s r report, bind_eq_ok_iff.mpr ⟨input, hinput, bind_eq_ok_iff.mpr
      ⟨document, ofChecked_eq_ok_iff.mpr hdocument, bind_eq_ok_iff.mpr
        ⟨report, ofChecked_eq_ok_iff.mpr hreport, rfl⟩⟩⟩⟩

theorem compareDrift_eq_ok {r : DriftRequest} (h : compareDrift s files r = .ok p) :
    ∃ output verdict, p = .report output verdict := by
  obtain ⟨input, -, h⟩ := bind_eq_ok_iff.mp h
  obtain ⟨compilation, -, h⟩ := bind_eq_ok_iff.mp h
  obtain ⟨template, -, h⟩ := bind_eq_ok_iff.mp h
  obtain ⟨deployed, -, h⟩ := bind_eq_ok_iff.mp h
  split at h
  · cases h
  · cases h
    exact ⟨_, _, rfl⟩

theorem compareDrift_eq_report_iff {r : DriftRequest} {verdict : Verdict} :
    (∃ output, compareDrift s files r = .ok (.report output verdict)) ↔
      ∃ input compilation template deployed policy, readInput files r.input = .ok input ∧
        (s.compiler files none).compile input = .ok compilation ∧
        readTemplate files r.template = .ok template ∧
        Template.policies template ((s.compiler files none).importsFor input) = .ok deployed ∧
        deployed[r.group]? = some policy ∧
        verdictOf (DriftReport.compare policy.containers
          (compilation.document.records false)).isEqual = verdict := by
  constructor
  · rintro ⟨output, h⟩
    obtain ⟨input, hinput, h⟩ := bind_eq_ok_iff.mp h
    obtain ⟨compilation, hcompilation, h⟩ := bind_eq_ok_iff.mp h
    obtain ⟨template, htemplate, h⟩ := bind_eq_ok_iff.mp h
    obtain ⟨deployed, hdeployed, h⟩ := bind_eq_ok_iff.mp h
    split at h
    · cases h
    · next policy hpolicy =>
      cases h
      exact ⟨input, compilation, template, deployed, policy, hinput,
        ofChecked_eq_ok_iff.mp hcompilation, htemplate, ofChecked_eq_ok_iff.mp hdeployed, hpolicy,
        rfl⟩
  · rintro ⟨input, compilation, template, deployed, policy, hinput, hcompilation, htemplate,
      hdeployed, hpolicy, rfl⟩
    let report := DriftReport.compare policy.containers (compilation.document.records false)
    let imports := (s.compiler files none).importsFor input
    let fragments := DriftReport.compareFragments policy.fragments imports
    refine ⟨driftText s r report fragments, bind_eq_ok_iff.mpr ⟨input, hinput, bind_eq_ok_iff.mpr
      ⟨compilation, ofChecked_eq_ok_iff.mpr hcompilation, bind_eq_ok_iff.mpr
        ⟨template, htemplate, bind_eq_ok_iff.mpr
          ⟨deployed, ofChecked_eq_ok_iff.mpr hdeployed, ?_⟩⟩⟩⟩⟩
    rw [hpolicy]
    rfl

end ConfidentialPolicy.CommandLine

import ConfidentialPolicy.Proofs.CommandLine.Commands
import ConfidentialPolicy.Proofs.Files
import ConfidentialPolicy.Proofs.Template.Reading

namespace ConfidentialPolicy.CommandLine

open Attempt

def CheckRequest.Finds (r : CheckRequest) (s : Setup) (files : Files) : Prop :=
  ∃ input document report, readInput files r.input = .ok input ∧
    ((s.compiler files none).compileUnresolved input).result = .ok document ∧
    SidecarReport.check document s.options.sidecars = .ok report ∧ report.isValid = false

def DriftRequest.Finds (r : DriftRequest) (s : Setup) (files : Files) : Prop :=
  ∃ input compilation template deployed policy, readInput files r.input = .ok input ∧
    (s.compiler files none).compile input = .ok compilation ∧
    readTemplate files r.template = .ok template ∧
    Template.policies template ((s.compiler files none).importsFor input) = .ok deployed ∧
    deployed[r.group]? = some policy ∧
    (DriftReport.compare policy.containers (compilation.document.records false)).isEqual = false

/-- The compiled policy was written into the template at a path, and no other file has changed. The
template is read as it was written, with each number as its text is read; integers stay. -/
def GenerateRequest.Injected (r : GenerateRequest) (s : Setup) (path : String)
    (before after : Files) : Prop :=
  ∃ input compilation text template updated, readInput before r.input = .ok input ∧
    (s.compiler before r.infrastructureSvn).compile input = .ok compilation ∧
    before.read path = .ok text ∧ Json.parse? text = some template ∧
    Template.inject template r.group (compilation.document.serialize .encoded r.omitId) =
      .ok updated ∧
    Files.Rewritten path updated.pretty before after ∧
    (∀ f, template.ReadsAs f → Json.parse? updated.pretty = some (updated.mapNumbers f)) ∧
    (template.Integral → Json.parse? updated.pretty = some updated)

def Action.Signs : Action → Prop
  | .fragment r => r.signing ≠ none
  | _ => False

def Action.Checks : Action → Prop
  | .checkSidecars _ | .compareDrift _ => True
  | _ => False

def Action.Finds (s : Setup) (files : Files) : Action → Prop
  | .checkSidecars r => r.Finds s files
  | .compareDrift r => r.Finds s files
  | _ => False

def Request.Finds (r : Request) (tools : Tools) (files : Files) : Prop :=
  ∃ s, Setup.load tools files r.settings = .ok s ∧ r.action.Finds s files

/-- What a request does to files, and what its verdict says. -/
structure Request.Outcome (r : Request) (tools : Tools) (files : Files) (done : Finished) :
    Prop where
  /-- An error comes before the write, unless it comes from signing what was written. -/
  files_of_error : ¬ r.action.Signs → ∀ e, done.answer = .error e → done.files = files
  files_of_check : r.action.Checks → done.files = files
  injected : ∀ g path a, r.action = .generate g → g.template = some path → done.answer = .ok a →
    ∃ s, Setup.load tools files r.settings = .ok s ∧ g.Injected s path files done.files
  findings_iff : (∃ output, done.answer = .ok ⟨output, .findings⟩) ↔ r.Finds tools files
  exitCode_iff : exitCode done.answer = 2 ↔ r.Finds tools files

namespace Action

variable {s : Setup} {files : Files} {p : Plan} {a : Action}

/-- How the plan of an action ends: in a report, in a clean answer, or without a signature. -/
inductive Ends (a : Action) (p : Plan) : Prop
  | report (ha : a.Checks) (output : String) (verdict : Verdict) (hp : p = .report output verdict)
  | clean (ha : ¬ a.Checks) (output : String) (hp : p.answer = .ok ⟨output, .clean⟩)
  | unsigned (ha : a.Signs) (e : PolicyError) (hp : p.answer = .error (.policy e))

theorem ends_of_planFor (h : planFor s files a = .ok p) : a.Ends p := by
  cases a with
  | generate r =>
    obtain ⟨input, compilation, output, -, -, hanswer, -⟩ := generate_eq_ok h
    exact .clean id output hanswer
  | fragment r =>
    obtain ⟨report, hanswer⟩ := fragment_eq_ok h
    unfold signFragment at hanswer
    split at hanswer
    · exact .clean id _ hanswer
    · next o ho =>
      have hsigns : Signs (.fragment r) := fun hnone ↦ by cases ho.symm.trans hnone
      cases hresult : (publish s.signer (some s.registry) (o.toPublish r.path)).result with
      | ok path =>
        rw [hresult] at hanswer
        exact .clean id _ hanswer
      | error e =>
        rw [hresult] at hanswer
        exact .unsigned hsigns e hanswer
  | importOf r =>
    obtain ⟨output, hanswer⟩ := importOf_eq_ok h
    exact .clean id output hanswer
  | checkSidecars r =>
    obtain ⟨output, verdict, hp⟩ := checkSidecars_eq_ok h
    exact .report trivial output verdict hp
  | compareDrift r =>
    obtain ⟨output, verdict, hp⟩ := compareDrift_eq_ok h
    exact .report trivial output verdict hp

theorem Checks.not_signs (h : a.Checks) : ¬ a.Signs := by
  cases a with
  | generate | fragment | importOf => exact absurd h id
  | checkSidecars | compareDrift => exact id

theorem Ends.settled (h : a.Ends p) (ha : ¬ a.Signs) : p.Settled := by
  cases h with
  | report _ output verdict hp => exact .inl (hp ▸ rfl)
  | clean _ output hp => exact .inr ⟨_, hp⟩
  | unsigned hsigns => exact absurd hsigns ha

theorem Ends.notUsage (h : a.Ends p) : p.answer.NotUsage := by
  cases h with
  | report _ output verdict hp =>
    rw [hp]
    exact nofun
  | clean _ output hp =>
    rw [hp]
    exact nofun
  | unsigned _ e hp =>
    rw [hp]
    exact nofun

theorem Ends.eq_report_of_checks (h : a.Ends p) (ha : a.Checks) :
    ∃ output verdict, p = .report output verdict := by
  cases h with
  | report _ output verdict hp => exact ⟨output, verdict, hp⟩
  | clean hother => exact absurd ha hother
  | unsigned hsigns => exact absurd hsigns ha.not_signs

/-- Only a report has findings. -/
theorem Ends.eq_report_of_findings (h : a.Ends p) {output : String}
    (hp : p.answer = .ok ⟨output, .findings⟩) : a.Checks ∧ p = .report output .findings := by
  cases h with
  | report ha output verdict hreport =>
    subst hreport
    cases hp
    exact ⟨ha, rfl⟩
  | clean _ output hclean =>
    rw [hclean] at hp
    cases hp
  | unsigned _ e hunsigned =>
    rw [hunsigned] at hp
    cases hp

theorem verdictOf_eq_findings_iff {b : Bool} : verdictOf b = .findings ↔ b = false := by
  cases b <;> decide

theorem exists_report_findings_iff :
    (∃ output, planFor s files a = .ok (.report output .findings)) ↔ a.Finds s files := by
  have hclean (ha : ¬ a.Checks) : ¬ ∃ output, planFor s files a = .ok (.report output .findings) := by
    rintro ⟨output, h⟩
    exact ha ((ends_of_planFor h).eq_report_of_findings rfl).1
  cases a with
  | checkSidecars r =>
    simp only [planFor, checkSidecars_eq_report_iff, verdictOf_eq_findings_iff]
    rfl
  | compareDrift r =>
    simp only [planFor, compareDrift_eq_report_iff, verdictOf_eq_findings_iff]
    rfl
  | generate | fragment | importOf => exact iff_of_false (hclean id) id

theorem notUsage_planFor (s : Setup) (files : Files) (a : Action) : (planFor s files a).NotUsage := by
  cases a with
  | generate r =>
    simp only [planFor, CommandLine.generate]
    split
    · exact nofun
    · refine (notUsage_readInput _).bind fun input ↦ (notUsage_ofChecked _).bind fun compilation ↦ ?_
      split
      · exact (notUsage_readAs _ _).bind fun template ↦ (notUsage_ofChecked _).bind fun _ ↦ nofun
      · exact nofun
      · exact nofun
  | fragment r =>
    exact (notUsage_readInput _).bind fun _ ↦ (notUsage_ofChecked _).bind fun _ ↦
      (notUsage_ofChecked _).bind fun _ ↦ nofun
  | importOf r =>
    refine (notUsage_readText _).bind fun _ ↦ (notUsage_ofChecked _).bind fun _ ↦ ?_
    split
    · exact nofun
    · refine Attempt.NotUsage.bind ?_ fun _ ↦ nofun
      unfold readImports
      split
      · refine (notUsage_readAs _ _).bind fun _ ↦ ?_
        split
        · exact notUsage_ofChecked _
        · exact nofun
      · exact nofun
  | checkSidecars r =>
    exact (notUsage_readInput _).bind fun _ ↦ (notUsage_ofChecked _).bind fun _ ↦
      (notUsage_ofChecked _).bind fun _ ↦ nofun
  | compareDrift r =>
    refine (notUsage_readInput _).bind fun _ ↦ (notUsage_ofChecked _).bind fun _ ↦
      (notUsage_readAs _ _).bind fun _ ↦ (notUsage_ofChecked _).bind fun _ ↦ ?_
    split <;> exact nofun

end Action

theorem exitCode_eq_two_iff {answer : Attempt Answer} (h : answer.NotUsage) :
    exitCode answer = 2 ↔ ∃ output, answer = .ok ⟨output, .findings⟩ := by
  match answer, h with
  | .ok ⟨output, .clean⟩, _ => exact iff_of_false (by simp [exitCode]) (by simp)
  | .ok ⟨output, .findings⟩, _ => exact iff_of_true rfl ⟨output, rfl⟩
  | .error .usage, h => exact absurd rfl h
  | .error (.policy _), _ | .error (.file _), _ | .error .notJson, _
  | .error .rawIntoTemplate, _ | .error (.noImportList _), _ | .error (.noGroupAt _), _ =>
    exact iff_of_false (by simp [exitCode]) (by simp)

namespace Request

variable {tools : Tools} {files : Files} {r : Request} {p : Plan}

theorem plan_eq_ok_iff : r.plan tools files = .ok p ↔
    ∃ s, Setup.load tools files r.settings = .ok s ∧ planFor s files r.action = .ok p :=
  Checked.bind_eq_ok_iff

theorem notUsage_commit (r : Request) (tools : Tools) (files : Files) (obstacles : Obstacles) :
    ((r.plan tools files).commit files obstacles).answer.NotUsage := by
  cases h : r.plan tools files with
  | error e =>
    have hplan : (r.plan tools files).NotUsage :=
      (notUsage_load tools r.settings).bind fun s ↦ Action.notUsage_planFor s files r.action
    rw [h] at hplan
    exact fun he ↦ hplan (congrArg _ (Except.error.inj he))
  | ok p =>
    obtain ⟨s, -, hp⟩ := plan_eq_ok_iff.mp h
    exact Plan.notUsage_commit (Action.ends_of_planFor hp).notUsage

theorem findings_iff (r : Request) (tools : Tools) (files : Files) (obstacles : Obstacles) :
    (∃ output, ((r.plan tools files).commit files obstacles).answer = .ok ⟨output, .findings⟩) ↔
      r.Finds tools files := by
  constructor
  · rintro ⟨output, ha⟩
    cases h : r.plan tools files with
    | error e =>
      rw [h] at ha
      cases ha
    | ok p =>
      rw [h] at ha
      obtain ⟨s, hs, hp⟩ := plan_eq_ok_iff.mp h
      refine ⟨s, hs, Action.exists_report_findings_iff.mp ⟨output, ?_⟩⟩
      have hanswer := Plan.answer_of_commit_eq_ok ha
      rwa [((Action.ends_of_planFor hp).eq_report_of_findings hanswer).2] at hp
  · rintro ⟨s, hs, hfinds⟩
    obtain ⟨output, hp⟩ := Action.exists_report_findings_iff.mpr hfinds
    rw [plan_eq_ok_iff.mpr ⟨s, hs, hp⟩]
    exact ⟨output, rfl⟩

theorem outcome_commit (r : Request) (tools : Tools) (files : Files) (obstacles : Obstacles) :
    r.Outcome tools files ((r.plan tools files).commit files obstacles) where
  files_of_error hsigns e he := by
    cases h : r.plan tools files with
    | error e => rfl
    | ok p =>
      rw [h] at he
      obtain ⟨s, -, hp⟩ := plan_eq_ok_iff.mp h
      exact ((Action.ends_of_planFor hp).settled hsigns).files_commit he
  files_of_check hchecks := by
    cases h : r.plan tools files with
    | error e => rfl
    | ok p =>
      obtain ⟨s, -, hp⟩ := plan_eq_ok_iff.mp h
      obtain ⟨output, verdict, rfl⟩ := (Action.ends_of_planFor hp).eq_report_of_checks hchecks
      rfl
  injected g path a hg hpath ha := by
    cases h : r.plan tools files with
    | error e =>
      rw [h] at ha
      cases ha
    | ok p =>
      rw [h] at ha
      obtain ⟨s, hs, hp⟩ := plan_eq_ok_iff.mp h
      rw [hg] at hp
      obtain ⟨input, compilation, output, hinput, hcompilation, -, hwrite⟩ := generate_eq_ok hp
      obtain ⟨template, updated, htemplate, hupdated, hwrite⟩ := hwrite path hpath
      obtain ⟨text, htext, hparse⟩ := readTemplate_eq_ok_iff.mp htemplate
      exact ⟨s, hs, input, compilation, text, template, updated, hinput, hcompilation, htext, hparse,
        hupdated, Files.rewritten_write htext (Plan.write_of_commit_eq_ok hwrite ha),
        fun f hread ↦ Template.parse?_pretty_inject hparse hread hupdated,
        fun hi ↦ Template.parse?_pretty_inject_of_integral hparse hi hupdated⟩
  findings_iff := findings_iff r tools files obstacles
  exitCode_iff :=
    (exitCode_eq_two_iff (notUsage_commit r tools files obstacles)).trans
      (findings_iff r tools files obstacles)

end Request

/-- A run of a command line that can not be read does nothing. A run of any other one fails without
a trace or does what was asked for, and has findings exactly where a check finds something. -/
theorem outcome_run (tools : Tools) (env : Environment) (files : Files) (words : List String)
    (obstacles : Obstacles) :
    (Request.ofWords? env words = none →
      run tools env files words obstacles = ⟨.error .usage, files⟩) ∧
    ∀ r, Request.ofWords? env words = some r →
      r.Outcome tools files (run tools env files words obstacles) := by
  refine ⟨fun h ↦ ?_, fun r h ↦ ?_⟩
  · simp only [run, plan, h]
    rfl
  · simp only [run, plan, h]
    exact r.outcome_commit tools files obstacles

def siteFiles (numeral : String) : Files where
  nodes := [
    (["in.json"], .text ("\x7b\"containers\":[\x7b\"name\":\"app\",\"properties\":" ++
      "\x7b\"image\":\"app:1\",\"command\":[\"run\"]\x7d\x7d]\x7d")),
    (["t.json"], .text ("\x7b\"n\":" ++ numeral ++ ",\"resources\":[\x7b\"type\":\"" ++
      Template.groupType ++ "\"\x7d]\x7d"))]
  here := []

def siteTemplate (n : Binary64) : Json :=
  .obj [("n", .num (.float n)), ("resources", .arr [.obj [("type", .str Template.groupType)]])]

def plainSettings : Settings where
  debugMode := false
  sidecars := none
  layers := none
  fragmentIndex := none
  signProgram := "sign1util"
  pushProgram := "oras"
  reports := .table

def injectionWords : List String :=
  ["generate", "-i", "in.json", "--template", "t.json", "--inject"]

def injectionRequest : Request where
  settings := plainSettings
  action := .generate
    { input := "in.json", format := .encoded, omitId := false, infrastructureSvn := none
      saveTo := none, template := some "t.json", group := 0 }

def driftWords : List String := ["diff", "-i", "in.json", "--existing", "t.json"]

def driftRequest : Request where
  settings := plainSettings
  action := .compareDrift { input := "in.json", template := "t.json", group := 0, style := .compact }

theorem readsAs_siteTemplate {f : Number → Number} {n : Binary64}
    (h : (Number.float n).ReadsAs (f (.float n))) : (siteTemplate n).ReadsAs f := by
  simp [siteTemplate, Json.readsAs_obj_iff, h]

theorem template_eq_of_read {numeral text : String} {n : Binary64} {template : Json}
    (hread : (siteFiles numeral).read "t.json" = .ok text)
    (hparse : Json.parse? text = some template)
    (hn : ∃ content, (siteFiles numeral).read "t.json" = .ok content ∧
      Json.parse? content = some (siteTemplate n)) : template = siteTemplate n := by
  obtain ⟨content, hcontent, hsite⟩ := hn
  rw [hread] at hcontent
  cases hcontent
  rw [hparse] at hsite
  exact Option.some.inj hsite

theorem get?_mapNumbers_inject {f : Number → Number} {n : Binary64} {updated : Json}
    {policy : String} (h : Template.inject (siteTemplate n) 0 policy = .ok updated) :
    (updated.mapNumbers f).get? "n" = some (.num (f (.float n))) := by
  obtain ⟨places, i, ms, rs, group, written, -, -, hms, -, -, -, rfl⟩ := Template.inject_eq_ok h
  cases hms
  rw [Json.mapNumbers_obj, Json.get?, KeyMap.get?_mapValues, KeyMap.get?_insert]
  rfl

/-- Without a command nothing happens; a template with the number one half is written and read back;
a container that is not deployed is a finding, and looking for it changes no file. -/
theorem outcome_run_siteFiles :
    run Tools.standard [] (siteFiles "0.5") [] .none = ⟨.error .usage, siteFiles "0.5"⟩ ∧
    (∃ content updated, (run Tools.standard [] (siteFiles "0.5") injectionWords .none).files.read
      "t.json" = .ok content ∧ Json.parse? content = some updated) ∧
    driftRequest.Finds Tools.standard (siteFiles "0.5") ∧
    (run Tools.standard [] (siteFiles "0.5") driftWords .none).files = siteFiles "0.5" := by
  have hinjection := (outcome_run Tools.standard [] (siteFiles "0.5") injectionWords .none).2
    injectionRequest (by decide +kernel)
  have hdrift := (outcome_run Tools.standard [] (siteFiles "0.5") driftWords .none).2
    driftRequest (by decide +kernel)
  obtain ⟨a, ha, -⟩ : ∃ a, (run Tools.standard [] (siteFiles "0.5") injectionWords .none).answer =
      .ok a ∧ a.verdict = .clean := by decide +kernel
  obtain ⟨s, -, input, c, text, template, updated, -, -, hread, hparse, -, hwritten, hback, -⟩ :=
    hinjection.injected _ "t.json" a rfl rfl ha
  have htemplate := template_eq_of_read (n := ⟨false, 4503599627370496, -53⟩) hread hparse
    (by decide +kernel)
  have hreads : template.ReadsAs id := htemplate ▸ readsAs_siteTemplate (by decide +kernel)
  exact ⟨(outcome_run Tools.standard [] (siteFiles "0.5") [] .none).1 (by decide +kernel),
    ⟨updated.pretty, _, hwritten.read_same "t.json" rfl, hback id hreads⟩,
    hdrift.exitCode_iff.mp (by decide +kernel), hdrift.files_of_check trivial⟩

/-- The numeral `1e-24` is read with a rounding error, and so is the numeral that is then written:
the template that a policy was written into is not read back. -/
theorem exists_misread_template :
    ∃ s input c template updated content,
      Request.ofWords? [] injectionWords = some injectionRequest ∧
      (run Tools.standard [] (siteFiles "1e-24") injectionWords).answer =
        .ok ⟨"  ✓ policy written into t.json\n", .clean⟩ ∧
      Setup.load Tools.standard (siteFiles "1e-24") plainSettings = .ok s ∧
      readInput (siteFiles "1e-24") "in.json" = .ok input ∧
      (s.compiler (siteFiles "1e-24") none).compile input = .ok c ∧
      readTemplate (siteFiles "1e-24") "t.json" = .ok template ∧
      Template.inject template 0 (c.document.serialize .encoded false) = .ok updated ∧
      (run Tools.standard [] (siteFiles "1e-24") injectionWords).files.read "t.json" =
        .ok content ∧
      Json.parse? content ≠ some updated := by
  obtain ⟨a, ha, rfl⟩ : ∃ a, (run Tools.standard [] (siteFiles "1e-24") injectionWords).answer =
      .ok a ∧ a = ⟨"  ✓ policy written into t.json\n", .clean⟩ := by decide +kernel
  have hwords : Request.ofWords? [] injectionWords = some injectionRequest := by decide +kernel
  have houtcome := injectionRequest.outcome_commit Tools.standard (siteFiles "1e-24") .none
  have hrun : run Tools.standard [] (siteFiles "1e-24") injectionWords =
      Attempt.commit (injectionRequest.plan Tools.standard (siteFiles "1e-24"))
        (siteFiles "1e-24") .none := by
    simp only [run, plan, hwords]
  rw [← hrun] at houtcome
  obtain ⟨s, hs, input, c, text, template, updated, hinput, hc, hread, hparse, hupdated, hwritten,
    hback, -⟩ := houtcome.injected _ "t.json" _ rfl rfl ha
  have htemplate := template_eq_of_read (n := ⟨false, 5444517870735016, -132⟩) hread hparse
    (by decide +kernel)
  subst htemplate
  -- What is written as `1.0000000000000001e-24` is read as the number below it.
  let misread : Number → Number := fun _ ↦ .float ⟨false, 5444517870735015, -132⟩
  have hreads := hback misread (readsAs_siteTemplate (by decide +kernel))
  refine ⟨s, input, c, _, updated, _, hwords, ha, hs, hinput, hc,
    readTemplate_eq_ok_iff.mpr ⟨text, hread, hparse⟩, hupdated, hwritten.read_same "t.json" rfl, ?_⟩
  intro hsame
  rw [hreads] at hsame
  have hn := get?_mapNumbers_inject (f := misread) hupdated
  have hid := get?_mapNumbers_inject (f := id) hupdated
  rw [Option.some.inj hsame] at hn
  rw [Json.mapNumbers_id, hn] at hid
  cases hid

end ConfidentialPolicy.CommandLine

import ConfidentialPolicy.Proofs.EnvRule.Matcher
import ConfidentialPolicy.Proofs.KeyMap
import ConfidentialPolicy.SidecarCheck

namespace ConfidentialPolicy.SidecarReport

open Checked EnvRule

variable {l : PatternLanguage} {table : SidecarTable}

theorem reasons_of_none {c : Container} (h : table.get? c.image = none) :
    reasons table c l = .ok [] := by
  rw [reasons, h]

theorem reasons_of_some {c : Container} {b : Baseline} (h : table.get? c.image = some b) :
    reasons table c l = (RuleMatcher.ofRules b.envRules l >>= fun m ↦
      .ok ((m.violations c.effectiveEnvRules).map RuleViolation.message)) := by
  rw [reasons, h]
  rfl

theorem exists_reasons_iff {c : Container} :
    (∃ rs, reasons table c l = .ok rs) ↔
      ∀ b ∈ table.get? c.image, ∀ r ∈ b.envRules, r.Compiles l := by
  cases h : table.get? c.image with
  | none => exact ⟨fun _ ↦ nofun, fun _ ↦ ⟨[], reasons_of_none h⟩⟩
  | some b =>
    simp only [reasons_of_some h, bind_eq_ok_iff, Option.mem_some_iff, forall_eq',
      ← RuleMatcher.exists_ofRules_iff]
    constructor
    · rintro ⟨rs, m, hm, -⟩
      exact ⟨m, hm⟩
    · rintro ⟨m, hm⟩
      exact ⟨_, m, hm, rfl⟩

theorem eq_badRegex_of_reasons {c : Container} {e : PolicyError}
    (h : reasons table c l = .error e) : e = .badRegex := by
  cases hb : table.get? c.image with
  | none =>
    rw [reasons_of_none hb] at h
    cases h
  | some b =>
    rw [reasons_of_some hb] at h
    rcases bind_eq_error_iff.mp h with h | ⟨m, -, h⟩
    · exact RuleMatcher.eq_badRegex_of_ofRules h
    · cases h

theorem reasons_eq_nil_iff {c : Container} {rs : List String} (h : reasons table c l = .ok rs) :
    rs = [] ↔ ∀ b ∈ table.get? c.image, Conform l b.envRules c.effectiveEnvRules := by
  cases hb : table.get? c.image with
  | none =>
    rw [reasons_of_none hb] at h
    cases h
    simp
  | some b =>
    rw [reasons_of_some hb] at h
    obtain ⟨m, hm, h⟩ := bind_eq_ok_iff.mp h
    cases h
    simp only [Option.mem_some_iff, forall_eq', List.map_eq_nil_iff,
      RuleMatcher.violations_eq_nil_iff hm]

def finding (table : SidecarTable) (l : PatternLanguage) (c : Container) :
    Checked (String × List String) :=
  reasons table c l >>= fun rs ↦ .ok (c.id, rs)

def noteAll (vs : Violations) (fs : List (String × List String)) : Violations :=
  fs.foldl (fun vs f ↦ note vs f.1 f.2) vs

theorem finding_eq_ok_iff {c : Container} {f : String × List String} :
    finding table l c = .ok f ↔ f.1 = c.id ∧ reasons table c l = .ok f.2 := by
  obtain ⟨id, rs⟩ := f
  rw [finding, bind_eq_ok_iff]
  constructor
  · rintro ⟨rs', hrs, h⟩
    cases h
    exact ⟨rfl, hrs⟩
  · rintro ⟨rfl, hrs⟩
    exact ⟨rs, hrs, rfl⟩

theorem collect_eq (vs : Violations) (cs : List Container) :
    collect table l vs cs = (cs.mapM (finding table l) >>= fun fs ↦ .ok (noteAll vs fs)) := by
  induction cs generalizing vs with
  | nil => rfl
  | cons c cs ih =>
    rw [collect, List.mapM_cons, finding]
    cases reasons table c l with
    | error e => rfl
    | ok rs =>
      refine (ih _).trans ?_
      cases cs.mapM (finding table l) <;> rfl

theorem check_eq_ok_iff {d : Document} {report : SidecarReport} :
    check d table l = .ok report ↔ ∃ fs, d.containers.mapM (finding table l) = .ok fs ∧
      report = ⟨(noteAll [] fs).isEmpty, noteAll [] fs⟩ := by
  rw [check, collect_eq]
  cases d.containers.mapM (finding table l) with
  | error e => exact ⟨nofun, nofun⟩
  | ok fs =>
    constructor
    · rintro ⟨⟩
      exact ⟨fs, rfl, rfl⟩
    · rintro ⟨_, ⟨⟩, rfl⟩
      rfl

/-- A check fails only because an expression does not compile. -/
theorem eq_badRegex_of_check {d : Document} {e : PolicyError} (h : check d table l = .error e) :
    e = .badRegex := by
  rw [check, collect_eq] at h
  rcases bind_eq_error_iff.mp h with h | ⟨vs, -, h⟩
  · rcases bind_eq_error_iff.mp h with h | ⟨fs, -, h⟩
    · obtain ⟨c, -, hc⟩ := exists_of_mapM_eq_error h
      rcases bind_eq_error_iff.mp hc with hc | ⟨rs, -, hc⟩
      · exact eq_badRegex_of_reasons hc
      · cases hc
    · cases h
  · cases h

theorem exists_check_iff {d : Document} :
    (∃ report, check d table l = .ok report) ↔
      ∀ c ∈ d.containers, ∀ b ∈ table.get? c.image, ∀ r ∈ b.envRules, r.Compiles l := by
  simp only [← exists_reasons_iff]
  constructor
  · rintro ⟨report, h⟩ c hc
    obtain ⟨fs, hfs, -⟩ := check_eq_ok_iff.mp h
    obtain ⟨f, -, hf⟩ := exists_of_mapM_mem hfs hc
    exact ⟨f.2, (finding_eq_ok_iff.mp hf).2⟩
  · intro h
    obtain ⟨fs, hfs⟩ := exists_mapM_eq_ok (f := finding table l) fun c hc ↦ by
      obtain ⟨rs, hrs⟩ := h c hc
      exact ⟨(c.id, rs), finding_eq_ok_iff.mpr ⟨rfl, hrs⟩⟩
    exact ⟨_, check_eq_ok_iff.mpr ⟨fs, hfs, rfl⟩⟩

theorem note_eq_nil_iff {vs : Violations} {id : String} {rs : List String} :
    note vs id rs = [] ↔ vs = [] ∧ rs = [] := by
  unfold note
  split
  · next h => simp [h]
  · next h => simp [h, KeyMap.update, KeyMap.insert_ne_nil]

theorem noteAll_eq_nil_iff {vs : Violations} {fs : List (String × List String)} :
    noteAll vs fs = [] ↔ vs = [] ∧ ∀ f ∈ fs, f.2 = [] := by
  induction fs generalizing vs with
  | nil => simp [noteAll]
  | cons f fs ih =>
    refine ih.trans ?_
    rw [note_eq_nil_iff, List.forall_mem_cons, and_assoc]

/-- The rules of all sidecars conform to their baselines where a check finds nothing. -/
theorem isValid_iff {d : Document} {report : SidecarReport} (h : check d table l = .ok report) :
    report.isValid = true ↔
      ∀ c ∈ d.containers, ∀ b ∈ table.get? c.image, Conform l b.envRules c.effectiveEnvRules := by
  obtain ⟨fs, hfs, rfl⟩ := check_eq_ok_iff.mp h
  simp only [List.isEmpty_iff, noteAll_eq_nil_iff, true_and]
  constructor
  · intro hnil c hc
    obtain ⟨f, hf, hcf⟩ := exists_of_mapM_mem hfs hc
    exact (reasons_eq_nil_iff (finding_eq_ok_iff.mp hcf).2).mp (hnil f hf)
  · intro hconform f hf
    obtain ⟨c, hc, hcf⟩ := exists_of_mem_mapM hfs hf
    exact (reasons_eq_nil_iff (finding_eq_ok_iff.mp hcf).2).mpr (hconform c hc)

def verdict (d : Document) (table : SidecarTable) (l : PatternLanguage) : Checked Bool :=
  check d table l >>= fun report ↦ .ok report.isValid

theorem verdict_eq_ok_iff {d : Document} {isValid : Bool} :
    verdict d table l = .ok isValid ↔
      (∀ c ∈ d.containers, ∀ b ∈ table.get? c.image, ∀ r ∈ b.envRules, r.Compiles l) ∧
        (isValid = true ↔ ∀ c ∈ d.containers, ∀ b ∈ table.get? c.image,
          Conform l b.envRules c.effectiveEnvRules) := by
  rw [verdict, bind_eq_ok_iff, ← exists_check_iff]
  constructor
  · rintro ⟨report, hreport, h⟩
    cases h
    exact ⟨⟨report, hreport⟩, isValid_iff hreport⟩
  · rintro ⟨⟨report, hreport⟩, h⟩
    refine ⟨report, hreport, ?_⟩
    rw [Bool.eq_iff_iff.mpr ((isValid_iff hreport).trans h.symm)]

theorem verdict_eq_error_iff {d : Document} {e : PolicyError} :
    verdict d table l = .error e ↔ e = .badRegex ∧
      ¬ ∀ c ∈ d.containers, ∀ b ∈ table.get? c.image, ∀ r ∈ b.envRules, r.Compiles l := by
  rw [← exists_check_iff, verdict]
  cases h : check d table l with
  | ok report => exact ⟨nofun, fun ⟨_, hnot⟩ ↦ absurd ⟨report, rfl⟩ hnot⟩
  | error e' =>
    obtain rfl := eq_badRegex_of_check h
    constructor
    · rintro ⟨⟩
      exact ⟨rfl, nofun⟩
    · rintro ⟨rfl, -⟩
      rfl

def sidecars (d : Document) (table : SidecarTable) : List Container :=
  d.containers.filter fun c ↦ table.isSidecar c.image

theorem mem_sidecars_iff {d : Document} {c : Container} :
    c ∈ sidecars d table ↔ c ∈ d.containers ∧ ∃ b, table.get? c.image = some b := by
  rw [sidecars, List.mem_filter, SidecarTable.isSidecar, Option.isSome_iff_exists]

/-- Two documents with the same sidecars, and two tables whose baselines have the same rules. The
other containers, the order of containers and rules, and repetitions do not count. -/
structure SameSidecars (d : Document) (table : SidecarTable) (d' : Document)
    (table' : SidecarTable) : Prop where
  sidecars : ∀ c, c ∈ sidecars d table ↔ c ∈ sidecars d' table'
  baselines : ∀ image, Option.Rel (fun b b' : Baseline ↦ ∀ r, r ∈ b.envRules ↔ r ∈ b'.envRules)
    (table.get? image) (table'.get? image)

section

variable {d d' : Document} {table' : SidecarTable} {p : Container → List EnvRule → Prop}

/-- What holds of the sidecars of the one document and their baselines holds of those of the other,
if it only depends on which rules a baseline has. -/
theorem SameSidecars.forall_imp (h : SameSidecars d table d' table')
    (hp : ∀ c rs rs', (∀ r, r ∈ rs ↔ r ∈ rs') → p c rs → p c rs')
    (hall : ∀ c ∈ d.containers, ∀ b ∈ table.get? c.image, p c b.envRules) :
    ∀ c ∈ d'.containers, ∀ b ∈ table'.get? c.image, p c b.envRules := by
  intro c hc b' hb'
  obtain ⟨hc, b, hb⟩ := mem_sidecars_iff.mp
    ((h.sidecars c).mpr (mem_sidecars_iff.mpr ⟨hc, b', hb'⟩))
  have hrules := h.baselines c.image
  rw [hb, Option.mem_def.mp hb'] at hrules
  cases hrules with
  | some hrules => exact hp c _ _ hrules (hall c hc b hb)

theorem SameSidecars.symm (h : SameSidecars d table d' table') :
    SameSidecars d' table' d table where
  sidecars c := (h.sidecars c).symm
  baselines image := by
    have hrel := h.baselines image
    revert hrel
    cases table.get? image <;> cases table'.get? image <;> rintro ⟨⟩
    · exact .none
    · next hrules => exact .some fun r ↦ (hrules r).symm

theorem SameSidecars.forall_iff (h : SameSidecars d table d' table')
    (hp : ∀ c rs rs', (∀ r, r ∈ rs ↔ r ∈ rs') → p c rs → p c rs') :
    (∀ c ∈ d.containers, ∀ b ∈ table.get? c.image, p c b.envRules) ↔
      ∀ c ∈ d'.containers, ∀ b ∈ table'.get? c.image, p c b.envRules :=
  ⟨h.forall_imp hp, h.symm.forall_imp hp⟩

theorem verdict_eq_of_sameSidecars (h : SameSidecars d table d' table') :
    verdict d table l = verdict d' table' l := by
  have hcompile := h.forall_iff (p := fun _ rs ↦ ∀ r ∈ rs, r.Compiles l)
    fun _ _ _ hrules hall r hr ↦ hall r ((hrules r).mpr hr)
  have hconform := h.forall_iff (p := fun c rs ↦ Conform l rs c.effectiveEnvRules)
    fun _ _ _ hrules hall ↦ hall.of_subset (fun r ↦ (hrules r).mp) fun r ↦ (hrules r).mpr
  cases hv : verdict d' table' l with
  | ok isValid => rw [verdict_eq_ok_iff, hcompile, hconform, ← verdict_eq_ok_iff, hv]
  | error e => rw [verdict_eq_error_iff, hcompile, ← verdict_eq_error_iff, hv]

end

/-- A check fails just where an expression in the baseline of a sidecar does not compile. Otherwise
it finds nothing just where the rules of every sidecar conform to its baseline, whatever other
containers there are and however containers and rules are ordered or repeated. -/
theorem check_ruleByRule (l : PatternLanguage) (d : Document) (table : SidecarTable) :
    ((∀ c ∈ d.containers, ∀ b ∈ table.get? c.image, ∀ r ∈ b.envRules, r.Compiles l) →
      ∃ report, check d table l = .ok report ∧
        (report.isValid = true ↔ ∀ c ∈ d.containers, ∀ b ∈ table.get? c.image,
          Conform l b.envRules c.effectiveEnvRules)) ∧
    (check d table l = .error .badRegex ↔ ∃ c ∈ d.containers, ∃ b ∈ table.get? c.image,
      ∃ r ∈ b.envRules, r.strategy = .re2 ∧ l.compile? r.pattern = none) ∧
    ∀ d' table', SameSidecars d table d' table' → verdict d table l = verdict d' table' l := by
  refine ⟨fun hcompile ↦ ?_, ?_, fun _ _ ↦ verdict_eq_of_sameSidecars⟩
  · obtain ⟨report, hreport⟩ := exists_check_iff.mpr hcompile
    exact ⟨report, hreport, isValid_iff hreport⟩
  · have hfails : check d table l = .error .badRegex ↔ ¬ ∃ report, check d table l = .ok report := by
      cases h : check d table l with
      | ok report => simp
      | error e => simp [eq_badRegex_of_check h]
    rw [hfails, exists_check_iff]
    simp only [Compiles, not_forall, exists_prop, Bool.not_eq_true, Option.isSome_eq_false_iff,
      Option.isNone_iff_eq_none]

def containerWith (id image : String) (patterns : List String) : Container :=
  { pauseContainer with id, image, envRules := patterns.map (⟨·, .string, false⟩) }

def adapterTable (rules : List EnvRule) : SidecarTable :=
  ⟨[("adapter", { command := [], workingDir := none, envRules := rules })]⟩

def tokenRule : EnvRule := ⟨"TOKEN=[0-9]+", .re2, true⟩

def termRule : EnvRule := ⟨"TERM=xterm", .string, false⟩

def adapterDocument : Document where
  containers := [containerWith "first" "adapter:1" ["TERM=xterm", "TOKEN=x"],
    containerWith "web" "web:1" ["TOKEN=x"],
    containerWith "second" "adapter:2" ["TOKEN=77"]]
  fragments := []

def swappedDocument : Document where
  containers := [containerWith "second" "adapter:2" ["TOKEN=77"],
    containerWith "first" "adapter:1" ["TERM=xterm", "TOKEN=x"]]
  fragments := []

theorem sameSidecars_swappedDocument :
    SameSidecars adapterDocument (adapterTable [tokenRule, termRule]) swappedDocument
      (adapterTable [termRule, tokenRule, termRule]) where
  sidecars c := by
    have hsidecars : sidecars adapterDocument (adapterTable [tokenRule, termRule]) =
        (sidecars swappedDocument (adapterTable [termRule, tokenRule, termRule])).reverse := by
      decide +kernel
    rw [hsidecars, List.mem_reverse]
  baselines image := by
    have hget (rules : List EnvRule) : (adapterTable rules).get? image =
        if imageBase image = "adapter" then
          some { command := [], workingDir := none, envRules := rules }
        else none :=
      KeyMap.get?_cons _ _ _ _
    rw [hget, hget]
    split
    · refine .some fun r ↦ ?_
      simp only [List.mem_cons, List.not_mem_nil, or_false]
      tauto
    · exact .none

theorem check_ruleByRule_adapterDocument :
    (∃ report, check adapterDocument (adapterTable [tokenRule, termRule]) = .ok report ∧
      (report.isValid = true ↔ ∀ c ∈ adapterDocument.containers,
        ∀ b ∈ (adapterTable [tokenRule, termRule]).get? c.image,
          Conform Regex.language b.envRules c.effectiveEnvRules)) ∧
    verdict adapterDocument (adapterTable [tokenRule, termRule]) Regex.language =
      verdict swappedDocument (adapterTable [termRule, tokenRule, termRule]) Regex.language :=
  ⟨(check_ruleByRule Regex.language adapterDocument (adapterTable [tokenRule, termRule])).1
      (by decide +kernel),
    (check_ruleByRule Regex.language adapterDocument (adapterTable [tokenRule, termRule])).2.2 _ _
      sameSidecars_swappedDocument⟩

def reasonsUnder (vs : Violations) (id : String) : Option (List String) :=
  (KeyMap.get? vs id).bind (KeyMap.get? · "env_rules")

def reasonsOf (table : SidecarTable) (l : PatternLanguage) (c : Container) : List String :=
  match reasons table c l with
  | .ok rs => rs
  | .error _ => []

/-- The reasons of the last container with an id that has any. -/
def lastReasons (table : SidecarTable) (l : PatternLanguage) (cs : List Container) (id : String) :
    Option (List String) :=
  (cs.filter fun c ↦ c.id = id ∧ reasonsOf table l c ≠ []).getLast?.map (reasonsOf table l)

theorem reasonsUnder_note (vs : Violations) (id : String) (rs : List String) (key : String) :
    reasonsUnder (note vs id rs) key =
      if id = key ∧ rs ≠ [] then some rs else reasonsUnder vs key := by
  unfold note
  split
  · next h => simp [h]
  · next h =>
    rw [reasonsUnder, KeyMap.update, KeyMap.get?_insert]
    by_cases hkey : key = id
    · simp [hkey, h, KeyMap.get?_insert]
    · rw [if_neg hkey, if_neg fun hid ↦ hkey hid.1.symm, reasonsUnder]

theorem lastReasons_cons (c : Container) (cs : List Container) (id : String) :
    lastReasons table l (c :: cs) id = (lastReasons table l cs id).or
      (if c.id = id ∧ reasonsOf table l c ≠ [] then some (reasonsOf table l c) else none) := by
  rw [lastReasons, List.filter_cons]
  simp only [decide_eq_true_eq]
  split
  · next h =>
    rw [List.getLast?_cons, lastReasons]
    cases (cs.filter fun c ↦ c.id = id ∧ reasonsOf table l c ≠ []).getLast? <;> rfl
  · rw [Option.or_none, lastReasons]

theorem reasonsUnder_noteAll {cs : List Container} {fs : List (String × List String)}
    (h : cs.mapM (finding table l) = .ok fs) (vs : Violations) (id : String) :
    reasonsUnder (noteAll vs fs) id = (lastReasons table l cs id).or (reasonsUnder vs id) := by
  have hall := mapM_eq_ok_iff.mp h
  clear h
  induction hall generalizing vs with
  | nil => rfl
  | @cons c f cs fs hcf _ ih =>
    obtain ⟨hid, hreasons⟩ := finding_eq_ok_iff.mp hcf
    have hof : reasonsOf table l c = f.2 := by rw [reasonsOf, hreasons]
    rw [noteAll, List.foldl_cons, ← noteAll, ih, reasonsUnder_note, lastReasons_cons, hof, hid,
      Option.or_assoc]
    split <;> rfl

/-- Under an id a report gives the reasons of the last container with that id that has any. -/
theorem reasonsUnder_check {d : Document} {report : SidecarReport}
    (h : check d table l = .ok report) (id : String) :
    reasonsUnder report.violations id = lastReasons table l d.containers id := by
  obtain ⟨fs, hfs, rfl⟩ := check_eq_ok_iff.mp h
  rw [reasonsUnder_noteAll hfs]
  exact Option.or_none

theorem exists_lastReasons {cs : List Container} {c : Container} (hc : c ∈ cs)
    (h : reasonsOf table l c ≠ []) : ∃ rs, lastReasons table l cs c.id = some rs := by
  have hne : (cs.filter fun c' ↦ c'.id = c.id ∧ reasonsOf table l c' ≠ []) ≠ [] :=
    List.ne_nil_of_mem (List.mem_filter.mpr ⟨hc, decide_eq_true ⟨rfl, h⟩⟩)
  rw [lastReasons, List.getLast?_eq_some_getLast hne]
  exact ⟨_, rfl⟩

/-- The reasons of a sidecar are reported under its id just where they are among those of the last
container with that id that has any. -/
theorem mem_reasonsUnder_iff {d : Document} {report : SidecarReport}
    (h : check d table l = .ok report) :
    ∀ c ∈ d.containers, ∀ b ∈ table.get? c.image, ∃ m, RuleMatcher.ofRules b.envRules l = .ok m ∧
      ((∀ v ∈ m.violations c.effectiveEnvRules,
          ∃ rs ∈ reasonsUnder report.violations c.id, v.message ∈ rs) ↔
        ∀ rs ∈ lastReasons table l d.containers c.id,
          ∀ v ∈ m.violations c.effectiveEnvRules, v.message ∈ rs) := by
  intro c hc b hb
  obtain ⟨m, hm⟩ := RuleMatcher.exists_ofRules_iff.mpr (exists_check_iff.mp ⟨report, h⟩ c hc b hb)
  refine ⟨m, hm, ?_⟩
  have hof : reasonsOf table l c = (m.violations c.effectiveEnvRules).map RuleViolation.message := by
    rw [reasonsOf, reasons_of_some hb, hm]
    rfl
  rw [reasonsUnder_check h]
  constructor
  · intro hall rs hrs v hv
    obtain ⟨rs', hrs', hmem⟩ := hall v hv
    rw [Option.mem_unique hrs hrs']
    exact hmem
  · intro hall v hv
    have hne : reasonsOf table l c ≠ [] :=
      hof ▸ List.ne_nil_of_mem (List.mem_map_of_mem hv)
    obtain ⟨rs, hrs⟩ := exists_lastReasons hc hne
    exact ⟨rs, hrs, hall rs hrs v hv⟩

def sharedDocument : Document where
  containers := [containerWith "adapter:1" "adapter:1" ["TERM=xterm"],
    containerWith "adapter:1" "adapter:1" ["PATH=/bin"]]
  fragments := []

theorem mem_reasonsUnder_sharedDocument : ∃ report,
    check sharedDocument (adapterTable [tokenRule]) = .ok report ∧
    ∀ c ∈ sharedDocument.containers, ∀ b ∈ (adapterTable [tokenRule]).get? c.image,
      ∃ m, RuleMatcher.ofRules b.envRules = .ok m ∧
      ((∀ v ∈ m.violations c.effectiveEnvRules,
          ∃ rs ∈ reasonsUnder report.violations c.id, v.message ∈ rs) ↔
        ∀ rs ∈ lastReasons (adapterTable [tokenRule]) Regex.language sharedDocument.containers c.id,
          ∀ v ∈ m.violations c.effectiveEnvRules, v.message ∈ rs) := by
  have hcheck : ∃ report, check sharedDocument (adapterTable [tokenRule]) = .ok report :=
    exists_check_iff.mpr (by decide +kernel)
  obtain ⟨report, hreport⟩ := hcheck
  exact ⟨report, hreport, mem_reasonsUnder_iff hreport⟩

/-- The reasons of a container are lost where another one with its id comes after it. -/
theorem exists_lost_reason : ∃ report, check sharedDocument (adapterTable []) = .ok report ∧
    ∃ c ∈ sharedDocument.containers, ∃ b ∈ (adapterTable []).get? c.image,
      ∃ m, RuleMatcher.ofRules b.envRules = .ok m ∧ ∃ v ∈ m.violations c.effectiveEnvRules,
        ∀ rs ∈ reasonsUnder report.violations c.id, v.message ∉ rs := by
  refine ⟨_, rfl, _, List.mem_cons_self, _, rfl, _, rfl,
    .unmatched ⟨"TERM=xterm", .string, false⟩, by decide +kernel, by decide +kernel⟩

end ConfidentialPolicy.SidecarReport

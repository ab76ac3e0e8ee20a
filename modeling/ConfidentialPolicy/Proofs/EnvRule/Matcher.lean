import ConfidentialPolicy.EnvRule.Matcher
import ConfidentialPolicy.Proofs.Checked

namespace ConfidentialPolicy

def PatternLanguage.Found (l : PatternLanguage) (pattern text : String) : Prop :=
  ∃ e, l.compile? pattern = some e ∧ l.finds e text = true

namespace EnvRule

def Compiles (l : PatternLanguage) (r : EnvRule) : Prop :=
  r.strategy = .re2 → (l.compile? r.pattern).isSome = true

instance (l : PatternLanguage) (r : EnvRule) : Decidable (r.Compiles l) :=
  inferInstanceAs (Decidable (_ → _))

/-- A rule of a policy allows the same rule, and literal rules in which it is found. -/
inductive Allows (l : PatternLanguage) (r c : EnvRule) : Prop
  | same (hstrategy : r.strategy = c.strategy) (hpattern : r.pattern = c.pattern)
  | found (hr : r.strategy = .re2) (hc : c.strategy = .string) (h : l.Found r.pattern c.pattern)

/-- A required rule is met by rules with its pattern, and by literal rules in which it is found. -/
inductive IsMetBy (l : PatternLanguage) (r c : EnvRule) : Prop
  | same (hpattern : c.pattern = r.pattern)
  | found (hr : r.strategy = .re2) (hc : c.strategy = .string) (h : l.Found r.pattern c.pattern)

/-- Rules that a policy allows and that meet what it requires. -/
structure Conform (l : PatternLanguage) (policy rules : List EnvRule) : Prop where
  allowed : ∀ c ∈ rules, ∃ r ∈ policy, r.Allows l c
  met : ∀ r ∈ policy, r.required = true → ∃ c ∈ rules, r.IsMetBy l c

/-- Only which rules a policy holds counts, not their order or how often it holds them. -/
theorem Conform.of_subset {l : PatternLanguage} {policy policy' rules : List EnvRule}
    (h : Conform l policy rules) (hsub : policy ⊆ policy') (hsup : policy' ⊆ policy) :
    Conform l policy' rules where
  allowed c hc := by
    obtain ⟨r, hr, hallows⟩ := h.allowed c hc
    exact ⟨r, hsub hr, hallows⟩
  met r hr hrequired := h.met r (hsup hr) hrequired

end EnvRule

namespace RuleMatcher

open EnvRule Checked

variable {l : PatternLanguage}

theorem compileRule_eq_ok_iff {r : EnvRule} {e : l.Expression} :
    compileRule l r = .ok e ↔ l.compile? r.pattern = some e := by
  unfold compileRule
  split
  · next e' h => rw [h, Except.ok.injEq, Option.some.injEq]
  · next h => simp [h]

theorem compileRule_eq_error_iff {r : EnvRule} {e : PolicyError} :
    compileRule l r = .error e ↔ l.compile? r.pattern = none ∧ e = .badRegex := by
  unfold compileRule
  split
  · next e' h => simp [h]
  · next h => rw [h, Except.error.injEq, eq_self, true_and, eq_comm]

theorem ofRules_eq_ok_iff {rules : List EnvRule} {m : RuleMatcher l} :
    ofRules rules l = .ok m ↔
      m.rules = rules ∧ (rules.filter isExpression).mapM (compileRule l) = .ok m.expressions := by
  obtain ⟨rules', es⟩ := m
  rw [ofRules, bind_eq_ok_iff]
  constructor
  · rintro ⟨es', hes, h⟩
    cases h
    exact ⟨rfl, hes⟩
  · rintro ⟨rfl, hes⟩
    exact ⟨es, hes, rfl⟩

theorem mem_filter_isExpression_iff {rules : List EnvRule} {r : EnvRule} :
    r ∈ rules.filter isExpression ↔ r ∈ rules ∧ r.strategy = .re2 := by
  rw [List.mem_filter, isExpression, beq_iff_eq]

/-- A matcher can be made just where the expressions of the policy compile. -/
theorem exists_ofRules_iff {rules : List EnvRule} :
    (∃ m, ofRules rules l = .ok m) ↔ ∀ r ∈ rules, r.Compiles l := by
  constructor
  · rintro ⟨m, hm⟩ r hr hstrategy
    obtain ⟨e, -, he⟩ := exists_of_mapM_mem (ofRules_eq_ok_iff.mp hm).2
      (mem_filter_isExpression_iff.mpr ⟨hr, hstrategy⟩)
    rw [compileRule_eq_ok_iff.mp he, Option.isSome_some]
  · intro h
    have hcompile : ∀ r ∈ rules.filter isExpression, ∃ e, compileRule l r = .ok e := by
      intro r hr
      obtain ⟨hr, hstrategy⟩ := mem_filter_isExpression_iff.mp hr
      obtain ⟨e, he⟩ := Option.isSome_iff_exists.mp (h r hr hstrategy)
      exact ⟨e, compileRule_eq_ok_iff.mpr he⟩
    obtain ⟨es, hes⟩ := exists_mapM_eq_ok hcompile
    exact ⟨⟨rules, es⟩, bind_eq_ok_iff.mpr ⟨es, hes, rfl⟩⟩

theorem eq_badRegex_of_ofRules {rules : List EnvRule} {e : PolicyError}
    (h : ofRules rules l = .error e) : e = .badRegex := by
  rcases bind_eq_error_iff.mp h with h | ⟨es, -, h⟩
  · obtain ⟨r, -, hr⟩ := exists_of_mapM_eq_error h
    exact (compileRule_eq_error_iff.mp hr).2
  · cases h

section

variable {rules : List EnvRule} {m : RuleMatcher l}

theorem exists_finds_iff (h : ofRules rules l = .ok m) {text : String} :
    (∃ e ∈ m.expressions, l.finds e text = true) ↔
      ∃ r ∈ rules, r.strategy = .re2 ∧ l.Found r.pattern text := by
  have hall := (ofRules_eq_ok_iff.mp h).2
  constructor
  · rintro ⟨e, he, hfinds⟩
    obtain ⟨r, hr, hcompile⟩ := exists_of_mem_mapM hall he
    obtain ⟨hr, hstrategy⟩ := mem_filter_isExpression_iff.mp hr
    exact ⟨r, hr, hstrategy, e, compileRule_eq_ok_iff.mp hcompile, hfinds⟩
  · rintro ⟨r, hr, hstrategy, e, hcompile, hfinds⟩
    obtain ⟨e', he', hcompile'⟩ := exists_of_mapM_mem hall
      (mem_filter_isExpression_iff.mpr ⟨hr, hstrategy⟩)
    rw [compileRule_eq_ok_iff, hcompile, Option.some.injEq] at hcompile'
    exact ⟨e', he', hcompile' ▸ hfinds⟩

theorem has_iff {c : EnvRule} :
    m.has c = true ↔ ∃ r ∈ m.rules, r.strategy = c.strategy ∧ r.pattern = c.pattern := by
  simp only [has, List.any_eq_true, Bool.and_eq_true, beq_iff_eq]

/-- A matcher accepts what a rule of its policy allows. -/
theorem accepts_iff (h : ofRules rules l = .ok m) {c : EnvRule} :
    m.accepts c = true ↔ ∃ r ∈ rules, r.Allows l c := by
  obtain ⟨hrules, -⟩ := ofRules_eq_ok_iff.mp h
  have hhas := has_iff (m := m) (c := c)
  rw [hrules] at hhas
  unfold accepts
  split
  · next hc =>
    rw [Bool.or_eq_true, List.any_eq_true, hhas, exists_finds_iff h]
    constructor
    · rintro (⟨r, hr, hstrategy, hpattern⟩ | ⟨r, hr, hstrategy, hfound⟩)
      · exact ⟨r, hr, .same hstrategy hpattern⟩
      · exact ⟨r, hr, .found hstrategy hc hfound⟩
    · rintro ⟨r, hr, ⟨hstrategy, hpattern⟩ | ⟨hstrategy, -, hfound⟩⟩
      · exact .inl ⟨r, hr, hstrategy, hpattern⟩
      · exact .inr ⟨r, hr, hstrategy, hfound⟩
  -- An expression is allowed by the same expression only.
  · next hc =>
    rw [hhas]
    constructor
    · rintro ⟨r, hr, hstrategy, hpattern⟩
      exact ⟨r, hr, .same hstrategy hpattern⟩
    · rintro ⟨r, hr, ⟨hstrategy, hpattern⟩ | ⟨-, hstring, -⟩⟩
      · exact ⟨r, hr, hstrategy, hpattern⟩
      · rw [hc] at hstring
        cases hstring

theorem isMet_iff {r : EnvRule} {candidates : List EnvRule} :
    isMet l r candidates = true ↔ ∃ c ∈ candidates, r.IsMetBy l c := by
  simp only [isMet, Bool.or_eq_true, List.any_eq_true, beq_iff_eq]
  constructor
  · rintro (⟨c, hc, hpattern⟩ | h)
    · exact ⟨c, hc, .same hpattern⟩
    · split at h
      · cases h
      · next hr =>
        split at h
        · cases h
        · next e hcompile =>
          obtain ⟨c, hc, h⟩ := List.any_eq_true.mp h
          obtain ⟨hstring, hfinds⟩ := Bool.and_eq_true_iff.mp h
          exact ⟨c, hc, .found hr (eq_of_beq hstring) ⟨e, hcompile, hfinds⟩⟩
  · rintro ⟨c, hc, ⟨hpattern⟩ | ⟨hr, hstring, e, hcompile, hfinds⟩⟩
    · exact .inl ⟨c, hc, hpattern⟩
    · refine .inr ?_
      simp only [hr, hcompile, List.any_eq_true]
      exact ⟨c, hc, Bool.and_eq_true_iff.mpr ⟨beq_iff_eq.mpr hstring, hfinds⟩⟩

/-- A matcher reports no violations just where the candidates conform to its policy. -/
theorem violations_eq_nil_iff (h : ofRules rules l = .ok m) {candidates : List EnvRule} :
    m.violations candidates = [] ↔ Conform l rules candidates := by
  obtain ⟨hrules, -⟩ := ofRules_eq_ok_iff.mp h
  simp only [violations, List.append_eq_nil_iff, List.map_eq_nil_iff, List.filter_eq_nil_iff,
    Bool.and_eq_true, Bool.not_eq_true', not_and, Bool.not_eq_false, accepts_iff h, isMet_iff,
    hrules]
  exact ⟨fun ⟨hallowed, hmet⟩ ↦ ⟨hallowed, hmet⟩, fun hconform ↦ ⟨hconform.allowed, hconform.met⟩⟩

end

end RuleMatcher

end ConfidentialPolicy

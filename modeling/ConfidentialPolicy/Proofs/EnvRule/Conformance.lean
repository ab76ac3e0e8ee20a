import ConfidentialPolicy.Proofs.EnvRule.Matcher
import Mathlib.Data.List.Basic

namespace ConfidentialPolicy

namespace EnvRule

variable {l : PatternLanguage} {policy rules more : List EnvRule}

/-- Rules of a policy conform to it if all that it requires is among them. -/
theorem conform_of_subset (hrules : rules ⊆ policy)
    (hrequired : ∀ r ∈ policy, r.required = true → r ∈ rules) : Conform l policy rules where
  allowed c hc := ⟨c, hrules hc, .same rfl rfl⟩
  met r hr hreq := ⟨r, hrequired r hr hreq, .same rfl⟩

end EnvRule

def RuleViolation.isMissing : RuleViolation → Bool
  | .unmatched _ => false
  | .missing _ => true

namespace RuleMatcher

open EnvRule

variable {l : PatternLanguage} {m n : RuleMatcher l} {rules more candidates : List EnvRule}

/-- The required rules that are reported missing. -/
def missing (m : RuleMatcher l) (candidates : List EnvRule) : List RuleViolation :=
  (m.violations candidates).filter RuleViolation.isMissing

theorem missing_eq (m : RuleMatcher l) (candidates : List EnvRule) : m.missing candidates =
    (m.rules.filter fun r ↦ r.required && !isMet l r candidates).map .missing := by
  have hunmatched (cs : List EnvRule) :
      (cs.map RuleViolation.unmatched).filter RuleViolation.isMissing = [] := by
    simp [List.filter_eq_nil_iff, RuleViolation.isMissing]
  have hmissing (rs : List EnvRule) :
      (rs.map RuleViolation.missing).filter RuleViolation.isMissing = rs.map .missing := by
    simp [List.filter_eq_self, RuleViolation.isMissing]
  rw [missing, violations, List.filter_append, hunmatched, hmissing, List.nil_append]

theorem violations_eq (m : RuleMatcher l) (candidates : List EnvRule) : m.violations candidates =
    (candidates.filter fun c ↦ !m.accepts c).map .unmatched ++ m.missing candidates := by
  rw [missing_eq, violations]

section

variable (hm : ofRules rules l = .ok m) (hn : ofRules (rules ++ more) l = .ok n)

include hm hn

theorem accepts_of_accepts {c : EnvRule} (h : m.accepts c = true) : n.accepts c = true := by
  obtain ⟨r, hr, hallows⟩ := (accepts_iff hm).mp h
  exact (accepts_iff hn).mpr ⟨r, List.mem_append_left more hr, hallows⟩

/-- Rules that are not required can not be missing. -/
theorem missing_eq_of_not_required (hmore : ∀ r ∈ more, r.required = false)
    (candidates : List EnvRule) : n.missing candidates = m.missing candidates := by
  have hnone : more.filter (fun r ↦ r.required && !isMet l r candidates) = [] := by
    apply List.filter_eq_nil_iff.mpr
    intro r hr
    rw [hmore r hr, Bool.false_and]
    exact Bool.false_ne_true
  obtain ⟨hmrules, -⟩ := ofRules_eq_ok_iff.mp hm
  obtain ⟨hnrules, -⟩ := ofRules_eq_ok_iff.mp hn
  rw [missing_eq, missing_eq, hmrules, hnrules, List.filter_append, hnone, List.append_nil]

theorem violations_sublist (hmore : ∀ r ∈ more, r.required = false) (candidates : List EnvRule) :
    (n.violations candidates).Sublist (m.violations candidates) := by
  have hunmatched : (candidates.filter fun c ↦ !n.accepts c).Sublist
      (candidates.filter fun c ↦ !m.accepts c) := by
    apply List.monotone_filter_right
    intro c hc
    rw [Bool.not_eq_true', Bool.eq_false_iff] at hc ⊢
    exact mt (accepts_of_accepts hm hn) hc
  rw [violations_eq, violations_eq, missing_eq_of_not_required hm hn hmore]
  exact (hunmatched.map _).append (List.Sublist.refl _)

end

theorem missing_append_sublist (m : RuleMatcher l) (cs ds : List EnvRule) :
    (m.missing (cs ++ ds)).Sublist (m.missing cs) := by
  have hmet (r : EnvRule) (h : isMet l r cs = true) : isMet l r (cs ++ ds) = true := by
    obtain ⟨c, hc, hby⟩ := isMet_iff.mp h
    exact isMet_iff.mpr ⟨c, List.mem_append_left ds hc, hby⟩
  rw [missing_eq, missing_eq]
  apply List.Sublist.map
  apply List.monotone_filter_right
  intro r hr
  rw [Bool.and_eq_true, Bool.not_eq_true', Bool.eq_false_iff] at hr ⊢
  exact ⟨hr.1, mt (hmet r) hr.2⟩

/-- Where its expressions compile, a policy has nothing against rules of its own with the required
ones among them; further rules that are not required take violations away and leave the missing
rules as they are; and further candidates take missing rules away. -/
theorem violations_reflexive_monotone (l : PatternLanguage) (rules : List EnvRule)
    (h : ∀ r ∈ rules, r.Compiles l) : ∃ m, ofRules rules l = .ok m ∧
      m.violations rules = [] ∧
      (∀ candidates, candidates ⊆ rules →
        (∀ r ∈ rules, r.required = true → r ∈ candidates) → m.violations candidates = []) ∧
      (∀ more, (∀ r ∈ more, r.Compiles l ∧ r.required = false) →
        ∃ n, ofRules (rules ++ more) l = .ok n ∧ ∀ candidates,
          (n.violations candidates).Sublist (m.violations candidates) ∧
            n.missing candidates = m.missing candidates) ∧
      ∀ cs ds, (m.missing (cs ++ ds)).Sublist (m.missing cs) := by
  obtain ⟨m, hm⟩ := exists_ofRules_iff.mpr h
  have hown (candidates : List EnvRule) (hsub : candidates ⊆ rules)
      (hrequired : ∀ r ∈ rules, r.required = true → r ∈ candidates) :
      m.violations candidates = [] :=
    (violations_eq_nil_iff hm).mpr (conform_of_subset hsub hrequired)
  refine ⟨m, hm, hown rules (List.Subset.refl rules) fun _ hr _ ↦ hr, hown, ?_, ?_⟩
  · intro more hmore
    have hcompile : ∀ r ∈ rules ++ more, r.Compiles l := by
      intro r hr
      obtain hr | hr := List.mem_append.mp hr
      · exact h r hr
      · exact (hmore r hr).1
    obtain ⟨n, hn⟩ := exists_ofRules_iff.mpr hcompile
    have hoptional : ∀ r ∈ more, r.required = false := fun r hr ↦ (hmore r hr).2
    refine ⟨n, hn, fun candidates ↦ ⟨?_, ?_⟩⟩
    · exact violations_sublist hm hn hoptional candidates
    · exact missing_eq_of_not_required hm hn hoptional candidates
  · exact missing_append_sublist m

def tokenPolicy : List EnvRule := [⟨"TOKEN=[0-9]+", .re2, true⟩, ⟨"TERM=xterm", .string, false⟩]

def pathRule : EnvRule := ⟨"PATH=.+", .re2, false⟩

theorem violations_reflexive_monotone_tokenPolicy :
    (∀ r ∈ tokenPolicy, r.Compiles Regex.language) ∧
    ∃ m, ofRules tokenPolicy Regex.language = .ok m ∧ m.violations tokenPolicy = [] ∧
      m.violations tokenPolicy.reverse = [] ∧
      ∃ n, ofRules (tokenPolicy ++ [pathRule]) Regex.language = .ok n ∧ ∀ candidates,
        (n.violations candidates).Sublist (m.violations candidates) ∧
          n.missing candidates = m.missing candidates := by
  have hcompile : ∀ r ∈ tokenPolicy, r.Compiles Regex.language := by decide +kernel
  obtain ⟨m, hm, hself, hown, hmore, -⟩ :=
    violations_reflexive_monotone Regex.language tokenPolicy hcompile
  refine ⟨hcompile, m, hm, hself, ?_, hmore [pathRule] (by decide +kernel)⟩
  exact hown tokenPolicy.reverse (by decide) (by decide)

end RuleMatcher

end ConfidentialPolicy

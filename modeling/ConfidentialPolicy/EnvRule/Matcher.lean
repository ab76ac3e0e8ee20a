import ConfidentialPolicy.EnvRule.Basic
import ConfidentialPolicy.Regex.Reader

namespace ConfidentialPolicy

/-- Which patterns are expressions, and in which texts an expression is found. -/
structure PatternLanguage where
  Expression : Type
  compile? : String → Option Expression
  finds : Expression → String → Bool

def Regex.language : PatternLanguage := ⟨Regex, Regex.compile?, Regex.finds⟩

structure RuleMatcher (l : PatternLanguage) where
  rules : List EnvRule
  expressions : List l.Expression

inductive RuleViolation where
  | unmatched (candidate : EnvRule)
  | missing (rule : EnvRule)
deriving DecidableEq, Repr

def RuleViolation.message : RuleViolation → String
  | .unmatched c => "environment variable with rule '" ++ c.pattern ++ match c.strategy with
    | .string => "' does not match strings or regex in policy rules"
    | .re2 => "' is not in the policy"
  | .missing r => "required environment variable with rule '" ++ r.pattern ++ "' is missing"

namespace RuleMatcher

variable {l : PatternLanguage}

def isExpression (r : EnvRule) : Bool := r.strategy == .re2

def compileRule (l : PatternLanguage) (r : EnvRule) : Checked l.Expression :=
  match l.compile? r.pattern with
  | some e => .ok e
  | none => .error .badRegex

/-- Fails if a pattern of the policy is no expression. -/
def ofRules (rules : List EnvRule) (l : PatternLanguage := Regex.language) :
    Checked (RuleMatcher l) := do
  let expressions ← (rules.filter isExpression).mapM (compileRule l)
  pure ⟨rules, expressions⟩

def has (m : RuleMatcher l) (r : EnvRule) : Bool :=
  m.rules.any fun p ↦ p.strategy == r.strategy && p.pattern == r.pattern

/-- A literal rule passes if the policy has it or one of its expressions is found in it; an
expression passes only if the policy has the same one. -/
def accepts (m : RuleMatcher l) (c : EnvRule) : Bool :=
  match c.strategy with
  | .string => m.has c || m.expressions.any (l.finds · c.pattern)
  | .re2 => m.has c

def isMet (l : PatternLanguage) (r : EnvRule) (candidates : List EnvRule) : Bool :=
  candidates.any (·.pattern == r.pattern) || match r.strategy with
    | .string => false
    | .re2 => match l.compile? r.pattern with
      | none => false
      | some e => candidates.any fun c ↦ c.strategy == .string && l.finds e c.pattern

/-- Candidates that the policy does not allow, then required rules that no candidate meets. -/
def violations (m : RuleMatcher l) (candidates : List EnvRule) : List RuleViolation :=
  (candidates.filter fun c ↦ !m.accepts c).map .unmatched ++
    (m.rules.filter fun r ↦ r.required && !isMet l r candidates).map .missing

end RuleMatcher

end ConfidentialPolicy

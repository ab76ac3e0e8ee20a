import ConfidentialPolicy.Proofs.Fragment.Trust

namespace ConfidentialPolicy.Resolution

variable {imports : List FragmentImport} {f : FoundFragment} {p : Progress}

theorem about_judge (imports : List FragmentImport) (f : FoundFragment) :
    (judge imports f).About f := by
  unfold judge
  split
  · rfl
  · next i _ =>
    split
    · next hsvn => exact ⟨rfl, hsvn⟩
    · next svn hsvn =>
      split
      · next hlt => exact ⟨rfl, hsvn, hlt⟩
      · exact ⟨rfl, hsvn⟩

theorem judge_congr {left : List FragmentImport}
    (h : imports.find? (·.feed == f.feed) = left.find? (·.feed == f.feed)) :
    judge imports f = judge left f := by
  rw [judge, judge, h]

theorem judge_eq_untrusted (h : imports.find? (·.feed == f.feed) = none) :
    judge imports f = .untrusted f.feed := by
  rw [judge, h]

theorem decisions_take (p : Progress) (f : FoundFragment) :
    (p.take f).decisions = p.decisions ++ [judge p.imports f] := by
  cases h : judge p.imports f <;> simp only [Progress.take, h]

theorem accepted_take (p : Progress) (f : FoundFragment) :
    (p.take f).accepted =
      p.accepted ++ if (judge p.imports f).isAccepted then [f.text] else [] := by
  cases h : judge p.imports f <;> simp [Progress.take, h, Decision.isAccepted]

theorem imports_take (p : Progress) (f : FoundFragment) :
    (p.take f).imports = if (judge p.imports f).isAccepted then
      p.imports.eraseP (·.feed == f.feed) else p.imports := by
  cases h : judge p.imports f <;> simp [Progress.take, h, Decision.isAccepted]

theorem take_withCalls (p : Progress) (calls : List DiscoveryCall) (f : FoundFragment) :
    Progress.take { p with calls } f = { p.take f with calls } := by
  cases h : judge p.imports f <;> simp only [Progress.take, h]

theorem foldl_take_withCalls (p : Progress) (calls : List DiscoveryCall) (fs : List FoundFragment) :
    fs.foldl Progress.take { p with calls } = { fs.foldl Progress.take p with calls } := by
  induction fs generalizing p with
  | nil => rfl
  | cons f fs ih => rw [List.foldl_cons, List.foldl_cons, take_withCalls, ih]

def chosenFor (choose : String → Option FoundFragment) (imports : List FragmentImport) :
    List FoundFragment :=
  imports.filterMap fun i ↦ choose i.feed

theorem chosenFor_append (choose : String → Option FoundFragment)
    (imports imports' : List FragmentImport) : chosenFor choose (imports ++ imports') =
      chosenFor choose imports ++ chosenFor choose imports' :=
  List.filterMap_append

/-- Asked for imports, a discovery finds the fragments that are chosen for them. -/
def Chooses (d : Discovery) (choose : String → Option FoundFragment) : Prop :=
  ∀ asked, d.standalone asked = .ok (chosenFor choose asked)

theorem Chooses.askStandalone {d : Discovery} {choose : String → Option FoundFragment}
    (h : Chooses d choose) (p : Progress) : ∃ calls, p.askStandalone d =
      { (chosenFor choose p.imports).foldl Progress.take p with calls } := by
  rw [Progress.askStandalone]
  split
  · next hnil =>
    rw [hnil]
    exact ⟨p.calls, rfl⟩
  · simp only [Progress.answer, h p.imports]
    exact ⟨p.calls ++ [.standalone p.imports], foldl_take_withCalls p _ _⟩

end ConfidentialPolicy.Resolution

import ConfidentialPolicy.Proofs.Fragment.Accounting
import ConfidentialPolicy.Proofs.Fragment.Isolation
import ConfidentialPolicy.Proofs.Fragment.Publish

namespace ConfidentialPolicy.Resolution

open Checked

def UsesUp (i : FragmentImport) (f : FoundFragment) : Prop :=
  f.feed = i.feed ∧ ∃ svn, PolicyText.svn? f.text = some svn ∧ i.minimumSvn ≤ svn

/-- The decision on a fragment by an import that was generated for it. -/
structure Vouched (text feed : String) (minimumSvn : Option UInt64) (d : Decision) : Prop where
  accepted_of_none : minimumSvn = none → ∃ svn, d = .accepted feed svn
  accepted_iff : ∀ svn, d = .accepted feed svn ↔
    PolicyText.svn? text = some svn ∧ ∀ m, minimumSvn = some m → m ≤ svn
  tooOld_iff : ∀ svn m, d = .tooOld feed svn m ↔
    PolicyText.svn? text = some svn ∧ minimumSvn = some m ∧ svn < m
  missingSvn_iff : d = .missingSvn feed ↔ PolicyText.svn? text = none

variable {i : FragmentImport} {f : FoundFragment} {fs before after : List FoundFragment}
  {p : Progress} {d : Discovery} {c : Container} {signer : Signer} {text feed chain : String}
  {minimumSvn : Option UInt64}

theorem judge_eq_missingSvn (h : i.feed = f.feed) (hsvn : PolicyText.svn? f.text = none) :
    judge [i] f = .missingSvn f.feed := by
  simp [judge, h, hsvn]

theorem judge_of_svn {svn : UInt64} (h : i.feed = f.feed)
    (hsvn : PolicyText.svn? f.text = some svn) : judge [i] f =
      if svn < i.minimumSvn then .tooOld f.feed svn i.minimumSvn else .accepted f.feed svn := by
  simp [judge, h, hsvn]

theorem isAccepted_judge_iff : (judge [i] f).isAccepted = true ↔ UsesUp i f := by
  by_cases hfeed : i.feed = f.feed
  · cases hsvn : PolicyText.svn? f.text with
    | none =>
      rw [judge_eq_missingSvn hfeed hsvn]
      simp [UsesUp, Decision.isAccepted, hsvn]
    | some svn =>
      rw [judge_of_svn hfeed hsvn]
      by_cases hlt : svn < i.minimumSvn
      · simp [UsesUp, Decision.isAccepted, hsvn, hlt]
      · simp [UsesUp, Decision.isAccepted, hsvn, hlt, hfeed, UInt64.not_lt.mp hlt]
  · rw [judge_eq_untrusted (by simpa using hfeed)]
    exact iff_of_false Bool.false_ne_true fun h ↦ hfeed h.1.symm

/-- An import is left after fragments that do not use it up. -/
theorem imports_foldl_take (hp : p.imports = [i]) (h : ∀ f ∈ fs, ¬ UsesUp i f) :
    (fs.foldl Progress.take p).imports = [i] := by
  induction fs generalizing p with
  | nil => exact hp
  | cons f fs ih =>
    obtain ⟨hf, hfs⟩ := List.forall_mem_cons.mp h
    refine ih ?_ hfs
    rw [imports_take, hp, if_neg fun haccepted ↦ hf (isAccepted_judge_iff.mp haccepted)]

/-- What is attached to the first image is judged first. -/
theorem exists_decisions_resolve (d : Discovery) (c : Container) (cs : List Container)
    (hd : d.attached c.image = .ok fs) : ∃ later, (resolve d (c :: cs) [i]).decisions =
      (fs.foldl Progress.take (.start [i])).decisions ++ later := by
  obtain ⟨others, himages, -⟩ := images_cons c cs
  let asked := (Progress.start [i]).askImage d c.image
  obtain ⟨early, hearly⟩ := asks_foldl_askImage d others asked
  obtain ⟨late, hlate⟩ := asks_askStandalone d (others.foldl (Progress.askImage d) asked)
  have hasked : asked.decisions = (fs.foldl Progress.take (.start [i])).decisions := by
    simp only [asked, Progress.askImage, Progress.answer, hd, foldl_take_withCalls]
  have hprogress : (progress d (c :: cs) [i]).decisions =
      asked.decisions ++ (early ++ late).flatten := by
    rw [progress, himages, List.foldl_cons]
    exact (hearly.trans hlate).decided
  rw [resolve_eq]
  simp only [hprogress, hasked, List.append_assoc]
  exact ⟨_, rfl⟩

/-- The decision on an attached fragment, if the import has not been used up before. -/
theorem decisions_resolve_of_attached (hd : d.attached c.image = .ok (before ++ f :: after))
    (hbefore : ∀ g ∈ before, ¬ UsesUp i g) (cs : List Container) :
    (resolve d (c :: cs) [i]).decisions[before.length]? = some (judge [i] f) := by
  obtain ⟨later, hlater⟩ := exists_decisions_resolve d c cs hd
  obtain ⟨ds, hds, habout⟩ := exists_verdicts_foldl_take (.start [i]) before
  obtain ⟨es, hes, -⟩ :=
    exists_verdicts_foldl_take ((before.foldl Progress.take (.start [i])).take f) after
  rw [hlater, List.foldl_append, List.foldl_cons, hes, decisions_take,
    imports_foldl_take rfl hbefore, hds]
  simp [Progress.start, habout.length_eq]

theorem generateImport_eq_ok
    (h : (generateImport signer text feed chain minimumSvn).result = .ok i) :
    i.feed = feed ∧ minimumSvn.or (PolicyText.svn? text) = some i.minimumSvn := by
  unfold generateImport at h
  split at h
  · cases h
  · next svn hsvn =>
    cases hissuer : signer.createIssuer chain with
    | error e =>
      rw [hissuer] at h
      cases h
    | ok issuer =>
      rw [hissuer] at h
      cases h
      exact ⟨rfl, hsvn⟩

theorem vouched_judge (h : (generateImport signer text feed chain minimumSvn).result = .ok i) :
    Vouched text feed minimumSvn (judge [i] ⟨feed, text⟩) := by
  obtain ⟨hfeed, hminimum⟩ := generateImport_eq_ok h
  cases hsvn : PolicyText.svn? text with
  | none =>
    rw [judge_eq_missingSvn hfeed hsvn]
    cases minimumSvn with
    | none => simp [hsvn] at hminimum
    | some m => constructor <;> simp [hsvn]
  | some svn =>
    rw [judge_of_svn hfeed hsvn]
    cases minimumSvn with
    | none =>
      obtain rfl : svn = i.minimumSvn := by simpa [hsvn] using hminimum
      constructor <;> simp [hsvn, eq_comm]
    | some m =>
      obtain rfl : m = i.minimumSvn := by simpa using hminimum
      by_cases hlt : svn < i.minimumSvn
      · constructor <;> simp [hsvn, hlt, eq_comm]
      · have hle := UInt64.not_lt.mp hlt
        constructor <;> simp [hsvn, hlt, hle, eq_comm]

/-- An import that was generated for a fragment accepts it, wherever it is attached to the first
image, unless an explicit least version is above that of the fragment or the fragment has none. -/
theorem vouched_resolve (h : (generateImport signer text feed chain minimumSvn).result = .ok i)
    (hd : d.attached c.image = .ok (before ++ ⟨feed, text⟩ :: after))
    (hbefore : ∀ g ∈ before, ¬ UsesUp i g) (cs : List Container) :
    ∃ decision, (resolve d (c :: cs) [i]).decisions[before.length]? = some decision ∧
      Vouched text feed minimumSvn decision :=
  ⟨_, decisions_resolve_of_attached hd hbefore cs, vouched_judge h⟩

theorem vouched_noisyDiscovery : ∃ i decision,
    (generateImport Compiler.namingSigner coveringText "feed" "chain" none).result = .ok i ∧
    (∀ g ∈ [FoundFragment.mk "foreign" coveringText], ¬ UsesUp i g) ∧
    (resolve noisyDiscovery [pauseContainer] [i]).decisions[1]? = some decision ∧
    Vouched coveringText "feed" none decision := by
  have h : (generateImport Compiler.namingSigner coveringText "feed" "chain" none).result =
      .ok ⟨"feed", "chain", 1, FragmentImport.allParts⟩ := by
    decide +kernel
  have hforeign : ∀ g ∈ [FoundFragment.mk "foreign" coveringText],
      ¬ UsesUp ⟨"feed", "chain", 1, FragmentImport.allParts⟩ g := by
    intro g hg huses
    cases List.mem_singleton.mp hg
    exact absurd huses.1 (by decide)
  obtain ⟨decision, hdecision, hvouched⟩ :=
    vouched_resolve (d := noisyDiscovery) h rfl hforeign (c := pauseContainer) []
  exact ⟨_, decision, h, hforeign, hdecision, hvouched⟩

/-- A fragment of version one is refused by the import that was generated from it with two as the
least version. -/
theorem exists_refused_fragment : ∃ i,
    (generateImport Compiler.namingSigner coveringText "feed" "chain" (some 2)).result = .ok i ∧
    quietDiscovery.attached pauseContainer.image = .ok [⟨"feed", coveringText⟩] ∧
    (resolve quietDiscovery [pauseContainer] [i]).decisions = [.tooOld "feed" 1 2] := by
  refine ⟨⟨"feed", "chain", 2, FragmentImport.allParts⟩, ?_, rfl, ?_⟩ <;> decide +kernel

end ConfidentialPolicy.Resolution

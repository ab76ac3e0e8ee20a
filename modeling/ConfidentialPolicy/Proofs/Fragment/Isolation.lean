import ConfidentialPolicy.Fragment.Resolution

namespace ConfidentialPolicy

def FragmentImport.isForeign (imports : List FragmentImport) (feed : String) : Bool :=
  !imports.any (·.feed == feed)

def Decision.isForeign (imports : List FragmentImport) : Decision → Bool
  | .untrusted feed => FragmentImport.isForeign imports feed
  | _ => false

namespace Resolution

open FragmentImport (isForeign)

def withoutForeign (imports : List FragmentImport) (fs : List FoundFragment) :
    List FoundFragment :=
  fs.filter fun f ↦ !isForeign imports f.feed

def withoutForeignDecisions (imports : List FragmentImport) (ds : List Decision) : List Decision :=
  ds.filter fun d ↦ !d.isForeign imports

/-- Two resolutions that differ in decisions on foreign feeds only. -/
structure InStep (imports : List FragmentImport) (p q : Progress) : Prop where
  named : p.imports ⊆ imports
  left : p.imports = q.imports
  accepted : p.accepted = q.accepted
  decisions : withoutForeignDecisions imports p.decisions =
    withoutForeignDecisions imports q.decisions
  calls : p.calls = q.calls

variable {imports : List FragmentImport} {p q r : Progress} {f : FoundFragment}

theorem InStep.refl (h : p.imports ⊆ imports) : InStep imports p p := ⟨h, rfl, rfl, rfl, rfl⟩

theorem InStep.symm (h : InStep imports p q) : InStep imports q p :=
  ⟨h.left ▸ h.named, h.left.symm, h.accepted.symm, h.decisions.symm, h.calls.symm⟩

theorem InStep.trans (h : InStep imports p q) (h' : InStep imports q r) : InStep imports p r :=
  ⟨h.named, h.left.trans h'.left, h.accepted.trans h'.accepted, h.decisions.trans h'.decisions,
    h.calls.trans h'.calls⟩

theorem InStep.append_decision (h : InStep imports p q) (d : Decision) :
    InStep imports { p with decisions := p.decisions ++ [d] }
      { q with decisions := q.decisions ++ [d] } := by
  refine ⟨h.named, h.left, h.accepted, ?_, h.calls⟩
  have hdecisions := h.decisions
  simp only [withoutForeignDecisions] at hdecisions ⊢
  rw [List.filter_append, List.filter_append, hdecisions]

theorem find?_eq_none_of_foreign {left : List FragmentImport} (hleft : left ⊆ imports)
    (hf : isForeign imports f.feed = true) : left.find? (·.feed == f.feed) = none := by
  refine List.find?_eq_none.mpr fun i hi hfeed ↦ ?_
  have hnamed : imports.any (·.feed == f.feed) = true :=
    List.any_eq_true.mpr ⟨i, hleft hi, hfeed⟩
  rw [isForeign, hnamed] at hf
  exact Bool.false_ne_true hf

/-- A foreign fragment leaves nothing behind but a decision on it. -/
theorem InStep.take_foreign (h : InStep imports p q) (hf : isForeign imports f.feed = true) :
    InStep imports (p.take f) q := by
  have hjudge : judge p.imports f = .untrusted f.feed := by
    rw [judge, find?_eq_none_of_foreign h.named hf]
  have htake : p.take f = { p with decisions := p.decisions ++ [.untrusted f.feed] } := by
    simp only [Progress.take, hjudge]
  rw [htake]
  refine ⟨h.named, h.left, h.accepted, ?_, h.calls⟩
  have hforeign : (Decision.untrusted f.feed).isForeign imports = true := hf
  have hdecisions := h.decisions
  simp only [withoutForeignDecisions] at hdecisions ⊢
  rw [List.filter_append, hdecisions, List.filter_cons_of_neg (by simp [hforeign]),
    List.filter_nil, List.append_nil]

theorem InStep.take (h : InStep imports p q) (f : FoundFragment) :
    InStep imports (p.take f) (q.take f) := by
  have happend := h.append_decision (judge p.imports f)
  -- The decision depends on the fragment and the imports that are left, which are the same.
  simp only [Progress.take, ← h.left]
  generalize judge p.imports f = verdict at happend ⊢
  cases verdict with
  | accepted feed svn =>
    refine ⟨?_, rfl, ?_, happend.decisions, h.calls⟩
    · intro i hi
      exact h.named (List.mem_of_mem_eraseP hi)
    · rw [h.accepted]
  | untrusted | tooOld | missingSvn | unavailable =>
    exact ⟨h.named, rfl, h.accepted, happend.decisions, h.calls⟩

theorem InStep.foldl_take_withoutForeign (h : InStep imports p q) (fs : List FoundFragment) :
    InStep imports (fs.foldl Progress.take p)
      ((withoutForeign imports fs).foldl Progress.take q) := by
  induction fs generalizing p q with
  | nil => exact h
  | cons f fs ih =>
    cases hf : isForeign imports f.feed with
    | true =>
      have hskip : withoutForeign imports (f :: fs) = withoutForeign imports fs := by
        simp [withoutForeign, hf]
      rw [hskip, List.foldl_cons]
      exact ih (h.take_foreign hf)
    | false =>
      have hkeep : withoutForeign imports (f :: fs) = f :: withoutForeign imports fs := by
        simp [withoutForeign, hf]
      rw [hkeep, List.foldl_cons, List.foldl_cons]
      exact ih (h.take f)

theorem InStep.foldl_take (h : InStep imports p q) {fs gs : List FoundFragment}
    (hfs : withoutForeign imports fs = withoutForeign imports gs) :
    InStep imports (fs.foldl Progress.take p) (gs.foldl Progress.take q) := by
  have hleft := h.foldl_take_withoutForeign fs
  have hright := (h.symm.trans h).foldl_take_withoutForeign gs
  rw [hfs] at hleft
  exact hleft.trans hright.symm

/-- Both questions fail with one error, or both answers hold the same fragments but for foreign
ones. -/
def SameAnswer (imports : List FragmentImport) (a b : Checked (List FoundFragment)) : Prop :=
  a.map (withoutForeign imports) = b.map (withoutForeign imports)

theorem InStep.answer (h : InStep imports p q) {a b : Checked (List FoundFragment)}
    (hab : SameAnswer imports a b) (call : DiscoveryCall) (source : String) :
    InStep imports (p.answer call source a) (q.answer call source b) := by
  have hcall : InStep imports { p with calls := p.calls ++ [call] }
      { q with calls := q.calls ++ [call] } :=
    ⟨h.named, h.left, h.accepted, h.decisions, by rw [h.calls]⟩
  cases a with
  | error e =>
    cases b with
    | error e' =>
      cases hab
      exact hcall.append_decision (.unavailable source e)
    | ok gs => cases hab
  | ok fs =>
    cases b with
    | error e' => cases hab
    | ok gs => exact hcall.foldl_take (Except.ok.inj hab)

structure SameNamed (imports : List FragmentImport) (d e : Discovery) : Prop where
  attached : ∀ image, SameAnswer imports (d.attached image) (e.attached image)
  standalone : ∀ asked, SameAnswer imports (d.standalone asked) (e.standalone asked)

variable {d e : Discovery}

theorem InStep.foldl_askImage (h : InStep imports p q) (hde : SameNamed imports d e)
    (images : List String) :
    InStep imports (images.foldl (Progress.askImage d) p)
      (images.foldl (Progress.askImage e) q) := by
  induction images generalizing p q with
  | nil => exact h
  | cons image images ih => exact ih (h.answer (hde.attached image) (.image image) image)

theorem InStep.askStandalone (h : InStep imports p q) (hde : SameNamed imports d e) :
    InStep imports (p.askStandalone d) (q.askStandalone e) := by
  simp only [Progress.askStandalone, ← h.left]
  split
  · exact h
  · exact h.answer (hde.standalone p.imports) (.standalone p.imports) "standalone"

structure Indistinguishable (imports : List FragmentImport) (r s : Resolution) : Prop where
  inline : r.inline = s.inline
  covered : r.covered = s.covered
  fragmentContainers : r.fragmentContainers = s.fragmentContainers
  calls : r.calls = s.calls
  decisions : withoutForeignDecisions imports r.decisions =
    withoutForeignDecisions imports s.decisions

/-- Fragments on feeds that no import names do not influence a resolution. -/
theorem indistinguishable_resolve (containers : List Container) (imports : List FragmentImport)
    {d e : Discovery} (hde : SameNamed imports d e) :
    Indistinguishable imports (resolve d containers imports) (resolve e containers imports) := by
  have hstart : InStep imports (.start imports) (.start imports) :=
    .refl (List.Subset.refl imports)
  have hend := (hstart.foldl_askImage hde (Container.images containers)).askStandalone hde
  -- The rest of a resolution depends on the accepted texts, but not on the decisions so far.
  refine ⟨?_, ?_, ?_, hend.calls, ?_⟩
  · simp only [resolve, hend.accepted]
  · simp only [resolve, hend.accepted]
  · simp only [resolve, hend.accepted]
  · have hdecisions := hend.decisions
    simp only [withoutForeignDecisions] at hdecisions
    simp only [resolve, withoutForeignDecisions, List.filter_append, hdecisions, hend.accepted]

def namedFeed : List FragmentImport := [⟨"feed", "issuer", 1, []⟩, ⟨"other", "issuer", 2, []⟩]

def coveringText : String :=
  "svn := \"1\"\ncontainers := [\x7b\"id\": \"mcr.microsoft.com/oss/kubernetes/pause:3.6\"\x7d]"

def quietDiscovery : Discovery where
  attached _ := .ok [⟨"feed", coveringText⟩]
  standalone _ := .ok []

def noisyDiscovery : Discovery where
  attached _ :=
    .ok [⟨"foreign", coveringText⟩, ⟨"feed", coveringText⟩, ⟨"foreign", "containers := ["⟩]
  standalone _ := .ok [⟨"foreign", coveringText⟩]

theorem indistinguishable_noisyDiscovery :
    SameNamed namedFeed quietDiscovery noisyDiscovery ∧
    Indistinguishable namedFeed (resolve quietDiscovery [pauseContainer] namedFeed)
      (resolve noisyDiscovery [pauseContainer] namedFeed) := by
  have hsame : SameNamed namedFeed quietDiscovery noisyDiscovery := by
    constructor <;> intro <;> rfl
  exact ⟨hsame, indistinguishable_resolve [pauseContainer] namedFeed hsame⟩

end Resolution

end ConfidentialPolicy

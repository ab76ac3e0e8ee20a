import ConfidentialPolicy.Proofs.FirstOccurrences
import ConfidentialPolicy.Proofs.Fragment.Progress

namespace ConfidentialPolicy

def DiscoveryCall.source : DiscoveryCall → String
  | .image name => name
  | .standalone _ => "standalone"

namespace Resolution

def notUsed (imports : List FragmentImport) (used : List Nat) : List FragmentImport :=
  (imports.zipIdx.filter (·.2 ∉ used)).map (·.1)

/-- No import of the same feed comes earlier and is free. -/
structure FirstFree (imports : List FragmentImport) (used : List Nat) (i : FragmentImport)
    (place : Nat) : Prop where
  here : imports[place]? = some i
  free : place ∉ used
  first : ∀ earlier j, earlier < place → imports[earlier]? = some j → j.feed = i.feed →
    earlier ∈ used

/-- The decisions that are right while some places are used, with the places that are used then. -/
inductive Decides (imports : List FragmentImport) (used : List Nat) : Decision → List Nat → Prop
  | accepted {i : FragmentImport} {place : Nat} {svn : UInt64} :
      FirstFree imports used i place → i.minimumSvn ≤ svn →
      Decides imports used (.accepted i.feed svn) (used ++ [place])
  | tooOld {i : FragmentImport} {place : Nat} {svn : UInt64} :
      FirstFree imports used i place → svn < i.minimumSvn →
      Decides imports used (.tooOld i.feed svn i.minimumSvn) used
  | missingSvn {i : FragmentImport} {place : Nat} :
      FirstFree imports used i place → Decides imports used (.missingSvn i.feed) used
  | untrusted {feed : String} :
      (∀ place i, imports[place]? = some i → i.feed = feed → place ∈ used) →
      Decides imports used (.untrusted feed) used
  | unavailable (source : String) (reason : PolicyError) :
      Decides imports used (.unavailable source reason) used

inductive Uses (imports : List FragmentImport) : List Nat → List Decision → Prop
  | nil : Uses imports [] []
  | concat {used used' : List Nat} {ds : List Decision} {d : Decision} :
      Uses imports used ds → Decides imports used d used' → Uses imports used' (ds ++ [d])

/-- What may be decided about the answer to a question: one decision on each fragment, or that there
is no answer. -/
inductive Settles (d : Discovery) (call : DiscoveryCall) : List Decision → Prop
  | answered {fs : List FoundFragment} {ds : List Decision} : answerTo d call = .ok fs →
      List.Forall₂ (fun f d ↦ d.About f) fs ds → Settles d call ds
  | unanswered {e : PolicyError} : answerTo d call = .error e →
      Settles d call [.unavailable call.source e]

variable {imports : List FragmentImport} {used : List Nat} {p q r : Progress} {d : Discovery}

theorem pairwise_zipIdx (imports : List FragmentImport) :
    imports.zipIdx.Pairwise (·.2 < ·.2) := by
  apply List.pairwise_map.mp
  rw [List.zipIdx_map_snd]
  exact List.pairwise_lt_range'

theorem filter_ne_of_pairwise {as bs : List (FragmentImport × Nat)} {x : FragmentImport × Nat}
    (h : (as ++ x :: bs).Pairwise (·.2 < ·.2)) :
    (as ++ x :: bs).filter (·.2 ≠ x.2) = as ++ bs := by
  obtain ⟨-, hx, has⟩ := List.pairwise_append.mp h
  have hbs := (List.pairwise_cons.mp hx).1
  have hleft : as.filter (·.2 ≠ x.2) = as := by
    apply List.filter_eq_self.mpr
    intro y hy
    exact decide_eq_true (Nat.ne_of_lt (has y hy x List.mem_cons_self))
  have hright : bs.filter (·.2 ≠ x.2) = bs := by
    apply List.filter_eq_self.mpr
    intro y hy
    exact decide_eq_true (Nat.ne_of_gt (hbs y hy))
  rw [List.filter_append, List.filter_cons_of_neg (by simp), hleft, hright]

theorem notUsed_nil (imports : List FragmentImport) : notUsed imports [] = imports := by
  simp [notUsed]

theorem notUsed_concat (imports : List FragmentImport) (used : List Nat) (place : Nat) :
    notUsed imports (used ++ [place]) =
      ((imports.zipIdx.filter (·.2 ∉ used)).filter (·.2 ≠ place)).map (·.1) := by
  rw [List.filter_filter, notUsed]
  congr 2
  funext x
  simp [Bool.and_comm]

/-- The first import of a feed that is left stands at the first free place of the feed, and using
this place takes the import away. -/
theorem exists_firstFree {feed : String} {i : FragmentImport}
    (h : (notUsed imports used).find? (·.feed == feed) = some i) :
    ∃ place, FirstFree imports used i place ∧
      (notUsed imports used).eraseP (·.feed == feed) = notUsed imports (used ++ [place]) := by
  rw [notUsed, List.find?_map] at h
  obtain ⟨x, hx, rfl⟩ := Option.map_eq_some_iff.mp h
  -- The imports before this one are on other feeds, those after it stand at later places.
  obtain ⟨hfeed, as, bs, hsplit, has⟩ := List.find?_eq_some_iff_append.mp hx
  have hordered : (as ++ x :: bs).Pairwise (·.2 < ·.2) :=
    hsplit ▸ (pairwise_zipIdx imports).filter _
  obtain ⟨hmem, hfree⟩ := List.mem_filter.mp (List.mem_of_find?_eq_some hx)
  refine ⟨x.2, ⟨List.mem_zipIdx_iff_getElem?.mp hmem, of_decide_eq_true hfree, ?_⟩, ?_⟩
  · intro earlier j hlt hj hsame
    by_contra hunused
    have hlisted : (j, earlier) ∈ as ++ x :: bs := by
      rw [← hsplit]
      exact List.mem_filter.mpr ⟨List.mem_zipIdx_iff_getElem?.mpr hj, decide_eq_true hunused⟩
    rcases List.mem_append.mp hlisted with hleft | hright
    · have hother := has _ hleft
      rw [Function.comp_apply, hsame] at hother
      exact absurd hfeed (by simpa using hother)
    · rcases List.mem_cons.mp hright with rfl | hright
      · exact Nat.lt_irrefl _ hlt
      · have hgt := (List.pairwise_cons.mp (List.pairwise_append.mp hordered).2.1).1 _ hright
        exact Nat.lt_asymm hlt hgt
  · rw [notUsed_concat, hsplit, filter_ne_of_pairwise hordered, notUsed, hsplit, List.eraseP_map,
      List.eraseP_append_right _ (by simpa using has), List.eraseP_cons_of_pos hfeed]

theorem mem_notUsed {place : Nat} {i : FragmentImport} (h : imports[place]? = some i)
    (hfree : place ∉ used) : i ∈ notUsed imports used := by
  apply List.mem_map.mpr
  refine ⟨(i, place), List.mem_filter.mpr ⟨?_, decide_eq_true hfree⟩, rfl⟩
  exact List.mem_zipIdx_iff_getElem?.mpr h

/-- Judging a fragment by the imports that are left decides rightly, and leaves those whose places
are not used then. -/
theorem exists_decides_judge (f : FoundFragment) (h : p.imports = notUsed imports used) :
    ∃ used', Decides imports used (judge p.imports f) used' ∧
      (p.take f).imports = notUsed imports used' := by
  rw [imports_take, judge]
  -- The first import of the feed that is left stands at its first place that is not used.
  cases hfind : p.imports.find? (·.feed == f.feed) with
  | none =>
    refine ⟨used, .untrusted ?_, h⟩
    intro place i hplace hfeed
    by_contra hfree
    have hleft : i ∈ p.imports := by
      rw [h]
      exact mem_notUsed hplace hfree
    exact List.find?_eq_none.mp hfind i hleft (beq_iff_eq.mpr hfeed)
  | some i =>
    have hfeed : i.feed = f.feed := by simpa using List.find?_some hfind
    rw [h] at hfind
    obtain ⟨place, hplace, herase⟩ := exists_firstFree hfind
    rw [← hfeed]
    cases hsvn : PolicyText.svn? f.text with
    | none => exact ⟨used, .missingSvn hplace, h⟩
    | some svn =>
      by_cases hlt : svn < i.minimumSvn
      · simp only [if_pos hlt]
        exact ⟨used, .tooOld hplace hlt, h⟩
      · simp only [if_neg hlt]
        refine ⟨used ++ [place], .accepted hplace (UInt64.not_lt.mp hlt), ?_⟩
        rw [h, hfeed]
        exact herase

/-- The imports that are left are those whose places the decisions have not used. -/
def Tracked (imports : List FragmentImport) (p : Progress) : Prop :=
  ∃ used, Uses imports used p.decisions ∧ p.imports = notUsed imports used

theorem tracked_start (imports : List FragmentImport) : Tracked imports (.start imports) :=
  ⟨[], .nil, (notUsed_nil imports).symm⟩

theorem Tracked.take (h : Tracked imports p) (f : FoundFragment) : Tracked imports (p.take f) := by
  obtain ⟨used, huses, hleft⟩ := h
  obtain ⟨used', hdecides, hleft'⟩ := exists_decides_judge f hleft
  refine ⟨used', ?_, hleft'⟩
  rw [decisions_take]
  exact huses.concat hdecides

theorem Tracked.foldl_take (h : Tracked imports p) (fs : List FoundFragment) :
    Tracked imports (fs.foldl Progress.take p) := by
  induction fs generalizing p with
  | nil => exact h
  | cons f fs ih => exact ih (h.take f)

theorem Tracked.answer (h : Tracked imports p) (call : DiscoveryCall) (source : String)
    (found : Checked (List FoundFragment)) : Tracked imports (p.answer call source found) := by
  obtain ⟨used, huses, hleft⟩ := h
  cases found with
  | ok fs =>
    have hcall : Tracked imports { p with calls := p.calls ++ [call] } := ⟨used, huses, hleft⟩
    exact hcall.foldl_take fs
  | error e => exact ⟨used, huses.concat (.unavailable source e), hleft⟩

theorem Tracked.foldl_askImage (h : Tracked imports p) (d : Discovery) (images : List String) :
    Tracked imports (images.foldl (Progress.askImage d) p) := by
  induction images generalizing p with
  | nil => exact h
  | cons image images ih => exact ih (h.answer (.image image) image (d.attached image))

theorem Tracked.askStandalone (h : Tracked imports p) (d : Discovery) :
    Tracked imports (p.askStandalone d) := by
  unfold Progress.askStandalone
  split
  · exact h
  · exact h.answer (.standalone p.imports) "standalone" (d.standalone p.imports)

/-- From one state to the other the questions were asked, and each was settled by its decisions. -/
structure Asks (d : Discovery) (calls : List DiscoveryCall) (settled : List (List Decision))
    (p q : Progress) : Prop where
  asked : q.calls = p.calls ++ calls
  decided : q.decisions = p.decisions ++ settled.flatten
  settles : List.Forall₂ (Settles d) calls settled

theorem Asks.refl (d : Discovery) (p : Progress) : Asks d [] [] p p :=
  ⟨(List.append_nil _).symm, (List.append_nil _).symm, .nil⟩

theorem Asks.trans {calls calls' : List DiscoveryCall} {settled settled' : List (List Decision)}
    (h : Asks d calls settled p q) (h' : Asks d calls' settled' q r) :
    Asks d (calls ++ calls') (settled ++ settled') p r := by
  constructor
  · rw [h'.asked, h.asked, List.append_assoc]
  · rw [h'.decided, h.decided, List.flatten_append, List.append_assoc]
  · exact List.rel_append h.settles h'.settles

theorem exists_verdicts_foldl_take (p : Progress) (fs : List FoundFragment) :
    ∃ ds, (fs.foldl Progress.take p).decisions = p.decisions ++ ds ∧
      List.Forall₂ (fun f d ↦ d.About f) fs ds := by
  induction fs generalizing p with
  | nil => exact ⟨[], (List.append_nil _).symm, .nil⟩
  | cons f fs ih =>
    obtain ⟨ds, hds, habout⟩ := ih (p.take f)
    refine ⟨judge p.imports f :: ds, ?_, .cons (about_judge p.imports f) habout⟩
    rw [List.foldl_cons, hds, decisions_take, List.append_assoc, List.singleton_append]

theorem asks_answer (d : Discovery) (call : DiscoveryCall) (p : Progress) :
    ∃ ds, Asks d [call] [ds] p (p.answer call call.source (answerTo d call)) := by
  cases hanswer : answerTo d call with
  | ok fs =>
    obtain ⟨ds, hds, habout⟩ :=
      exists_verdicts_foldl_take { p with calls := p.calls ++ [call] } fs
    refine ⟨ds, calls_foldl_take _ fs, ?_, .cons (.answered hanswer habout) .nil⟩
    rw [List.flatten_singleton]
    exact hds
  | error e => exact ⟨_, rfl, rfl, .cons (.unanswered hanswer) .nil⟩

theorem asks_foldl_askImage (d : Discovery) (images : List String) (p : Progress) :
    ∃ settled, Asks d (images.map .image) settled p (images.foldl (Progress.askImage d) p) := by
  induction images generalizing p with
  | nil => exact ⟨[], .refl d p⟩
  | cons image images ih =>
    obtain ⟨ds, hfirst⟩ := asks_answer d (.image image) p
    obtain ⟨settled, hrest⟩ := ih (p.askImage d image)
    exact ⟨[ds] ++ settled, Asks.trans hfirst hrest⟩

def standaloneCalls (imports : List FragmentImport) : List DiscoveryCall :=
  if imports = [] then [] else [.standalone imports]

theorem asks_askStandalone (d : Discovery) (p : Progress) :
    ∃ settled, Asks d (standaloneCalls p.imports) settled p (p.askStandalone d) := by
  rw [standaloneCalls, Progress.askStandalone]
  split
  · exact ⟨[], .refl d p⟩
  · obtain ⟨ds, hasks⟩ := asks_answer d (.standalone p.imports) p
    exact ⟨[ds], hasks⟩

def unreadable? (f : FoundFragment) : Option Decision :=
  match PolicyText.containers f.text with
  | .ok _ => none
  | .error e => some (.unavailable "fragment" e)

theorem flatMap_recordsOf (fs : List FoundFragment) :
    (fs.map (·.text)).flatMap (recordsOf · |>.2) = fs.filterMap unreadable? := by
  induction fs with
  | nil => rfl
  | cons f fs ih =>
    rw [List.map_cons, List.flatMap_cons, ih, List.filterMap_cons, recordsOf, unreadable?]
    cases PolicyText.containers f.text <;> rfl

/-- Images are asked about first, each once; then the imports that no attached fragment has used up.
The decisions settle these questions in order, and accepted fragments that can not be read follow. -/
structure Accounts (d : Discovery) (containers : List Container) (imports : List FragmentImport)
    (r : Resolution) (images : List String) (used : List Nat) (early late : List (List Decision)) :
    Prop where
  once : FirstOccurrences (containers.map (·.image)) images
  calls : r.calls = images.map .image ++ standaloneCalls (notUsed imports used)
  attached : List.Forall₂ (Settles d) (images.map .image) early
  standalone : List.Forall₂ (Settles d) (standaloneCalls (notUsed imports used)) late
  uses : Uses imports used early.flatten
  usesAll : ∃ all, Uses imports all (early ++ late).flatten
  decisions : r.decisions = (early ++ late).flatten ++
    (admitted (r.calls.flatMap (found d)) (early ++ late).flatten).filterMap unreadable?

theorem accounts_resolve (d : Discovery) (containers : List Container)
    (imports : List FragmentImport) : ∃ images used early late,
    Accounts d containers imports (resolve d containers imports) images used early late := by
  let images := Container.images containers
  let asked := images.foldl (Progress.askImage d) (.start imports)
  obtain ⟨early, hearly⟩ := asks_foldl_askImage d images (.start imports)
  obtain ⟨late, hlate⟩ := asks_askStandalone d asked
  have hend := hearly.trans hlate
  have hasked : asked.decisions = early.flatten := hearly.decided
  have hdecisions : (progress d containers imports).decisions = (early ++ late).flatten :=
    hend.decided
  have htracked := (tracked_start imports).foldl_askImage d images
  obtain ⟨all, hall, -⟩ := htracked.askStandalone d
  obtain ⟨used, huses, hleft⟩ := htracked
  have htexts := (audited_progress d containers imports).texts
  refine ⟨images, used, early, late, Container.firstOccurrences_images containers, ?_,
    hearly.settles, ?_, ?_, ⟨all, ?_⟩, ?_⟩
  · rw [← hleft]
    exact hend.asked
  · rw [← hleft]
    exact hlate.settles
  · rwa [← hasked]
  · rwa [← hdecisions]
  · rw [resolve_eq]
    simp only [htexts, flatMap_recordsOf, hdecisions]

end Resolution

end ConfidentialPolicy

import ConfidentialPolicy.Fragment.Resolution
import Mathlib.Data.List.Forall2

namespace ConfidentialPolicy

namespace Decision

def isAccepted : Decision → Bool
  | .accepted .. => true
  | _ => false

def isVerdict : Decision → Bool
  | .unavailable .. => false
  | _ => true

/-- What a decision on a fragment says about it. -/
def About (f : FoundFragment) : Decision → Prop
  | .accepted feed svn => f.feed = feed ∧ PolicyText.svn? f.text = some svn
  | .untrusted feed => f.feed = feed
  | .tooOld feed svn minimumSvn =>
    f.feed = feed ∧ PolicyText.svn? f.text = some svn ∧ svn < minimumSvn
  | .missingSvn feed => f.feed = feed ∧ PolicyText.svn? f.text = none
  | .unavailable .. => False

theorem About.isVerdict {f : FoundFragment} {d : Decision} (h : d.About f) :
    d.isVerdict = true := by
  cases d with
  | unavailable => exact absurd h id
  | accepted | untrusted | tooOld | missingSvn => rfl

theorem isVerdict_of_isAccepted {d : Decision} (h : d.isAccepted = true) : d.isVerdict = true := by
  cases d with
  | unavailable => cases h
  | accepted | untrusted | tooOld | missingSvn => rfl

end Decision

namespace Resolution

/-- The import at a place admits the fragment that a decision accepts. -/
def Admits (imports : List FragmentImport) (place : Nat) (d : Decision) : Prop :=
  ∃ i svn, imports[place]? = some i ∧ d = .accepted i.feed svn ∧ i.minimumSvn ≤ svn

def judged (seen : List FoundFragment) (ds : List Decision) : List (FoundFragment × Decision) :=
  seen.zip (ds.filter (·.isVerdict))

def admitted (seen : List FoundFragment) (ds : List Decision) : List FoundFragment :=
  ((judged seen ds).filter (·.2.isAccepted)).map (·.1)

/-- The records that a fragment brings in: those of its text, if it was accepted and the text scans.
-/
def contribution (j : FoundFragment × Decision) : List Json :=
  match j.2, PolicyText.containers j.1.text with
  | .accepted .., .ok records => records
  | _, _ => []

theorem contribution_of_isAccepted {f : FoundFragment} {d : Decision} (h : d.isAccepted = true) :
    contribution (f, d) = (recordsOf f.text).1 := by
  cases d with
  | accepted =>
    simp only [contribution, recordsOf]
    cases PolicyText.containers f.text <;> rfl
  | untrusted | tooOld | missingSvn | unavailable => cases h

theorem contribution_of_not_isAccepted {f : FoundFragment} {d : Decision}
    (h : d.isAccepted = false) : contribution (f, d) = [] := by
  cases d with
  | accepted => cases h
  | untrusted | tooOld | missingSvn | unavailable => rfl

/-- All imports, with their places, are used up by accepted fragments or left. -/
def Balanced (imports left : List FragmentImport) (ds : List Decision) : Prop :=
  ∃ spent rest : List (FragmentImport × Nat), (spent ++ rest).Perm imports.zipIdx ∧
    left = rest.map (·.1) ∧
    List.Forall₂ (Admits imports) (spent.map (·.2)) (ds.filter (·.isAccepted))

/-- The invariant of a resolution that has seen these fragments. -/
structure Ledger (imports : List FragmentImport) (seen : List FoundFragment) (p : Progress) :
    Prop where
  verdicts : List.Forall₂ (fun f d ↦ d.About f) seen (p.decisions.filter (·.isVerdict))
  texts : p.accepted = (admitted seen p.decisions).map (·.text)
  balanced : Balanced imports p.imports p.decisions

/-- Everything that judging a fragment can do. -/
theorem take_cases (p : Progress) (f : FoundFragment) :
    (∃ i svn, p.imports.find? (·.feed == f.feed) = some i ∧ i.minimumSvn ≤ svn ∧
      (Decision.accepted f.feed svn).About f ∧
      p.take f = ⟨p.imports.eraseP (·.feed == f.feed), p.accepted ++ [f.text],
        p.decisions ++ [.accepted f.feed svn], p.calls⟩) ∨
    ∃ d, d.About f ∧ d.isAccepted = false ∧
      p.take f = { p with decisions := p.decisions ++ [d] } := by
  cases hfind : p.imports.find? (·.feed == f.feed) with
  | none =>
    refine .inr ⟨.untrusted f.feed, rfl, rfl, ?_⟩
    simp [Progress.take, judge, hfind]
  | some i =>
    cases hsvn : PolicyText.svn? f.text with
    | none =>
      refine .inr ⟨.missingSvn f.feed, ⟨rfl, hsvn⟩, rfl, ?_⟩
      simp [Progress.take, judge, hfind, hsvn]
    | some svn =>
      by_cases hlt : svn < i.minimumSvn
      · refine .inr ⟨.tooOld f.feed svn i.minimumSvn, ⟨rfl, hsvn, hlt⟩, rfl, ?_⟩
        simp [Progress.take, judge, hfind, hsvn, hlt]
      · refine .inl ⟨i, svn, rfl, UInt64.not_lt.mp hlt, ⟨rfl, hsvn⟩, ?_⟩
        simp [Progress.take, judge, hfind, hsvn, hlt]

theorem perm_cons_eraseP {α : Type} {p : α → Bool} {l : List α} {a : α} (h : l.find? p = some a) :
    (a :: l.eraseP p).Perm l := by
  obtain ⟨ha, as, bs, rfl, has⟩ := List.find?_eq_some_iff_append.mp h
  rw [List.eraseP_append_right _ (by simpa using has), List.eraseP_cons_of_pos ha]
  exact List.perm_middle.symm

variable {imports left : List FragmentImport} {seen : List FoundFragment} {p : Progress}
  {f : FoundFragment} {ds : List Decision} {d : Decision}

theorem filter_isVerdict_append (h : d.About f) :
    (ds ++ [d]).filter (·.isVerdict) = ds.filter (·.isVerdict) ++ [d] := by
  rw [List.filter_append, List.filter_cons_of_pos h.isVerdict, List.filter_nil]

theorem judged_append (hlength : seen.length = (ds.filter (·.isVerdict)).length) (h : d.About f) :
    judged (seen ++ [f]) (ds ++ [d]) = judged seen ds ++ [(f, d)] := by
  rw [judged, filter_isVerdict_append h, List.zip_append hlength]
  rfl

theorem admitted_append (hlength : seen.length = (ds.filter (·.isVerdict)).length)
    (h : d.About f) : admitted (seen ++ [f]) (ds ++ [d]) =
      admitted seen ds ++ if d.isAccepted then [f] else [] := by
  rw [admitted, judged_append hlength h, List.filter_append, List.map_append, ← admitted]
  cases hd : d.isAccepted <;> simp [hd]

theorem verdicts_append (h : List.Forall₂ (fun f d ↦ d.About f) seen (ds.filter (·.isVerdict)))
    (hd : d.About f) : List.Forall₂ (fun f d ↦ d.About f) (seen ++ [f])
      ((ds ++ [d]).filter (·.isVerdict)) := by
  rw [filter_isVerdict_append hd]
  exact List.rel_append h (.cons hd .nil)

theorem Balanced.reject (h : Balanced imports left ds) (hd : d.isAccepted = false) :
    Balanced imports left (ds ++ [d]) := by
  obtain ⟨spent, rest, hperm, hleft, hadmits⟩ := h
  refine ⟨spent, rest, hperm, hleft, ?_⟩
  rw [List.filter_append, List.filter_cons_of_neg (by simp [hd]), List.filter_nil, List.append_nil]
  exact hadmits

theorem Balanced.accept {i : FragmentImport} {svn : UInt64} (h : Balanced imports left ds)
    (hfind : left.find? (·.feed == f.feed) = some i) (hle : i.minimumSvn ≤ svn) :
    Balanced imports (left.eraseP (·.feed == f.feed)) (ds ++ [.accepted f.feed svn]) := by
  obtain ⟨spent, rest, hperm, rfl, hadmits⟩ := h
  rw [List.find?_map] at hfind
  obtain ⟨x, hx, rfl⟩ := Option.map_eq_some_iff.mp hfind
  have hsame := List.find?_some hx
  have hfeed : x.1.feed = f.feed := eq_of_beq hsame
  -- The first import of the feed moves from those that are left to those that are used up.
  refine ⟨spent ++ [x], rest.eraseP ((·.feed == f.feed) ∘ (·.1)), ?_, List.eraseP_map, ?_⟩
  · rw [List.append_assoc, List.singleton_append]
    exact ((perm_cons_eraseP hx).append_left spent).trans hperm
  · have hplace : imports[x.2]? = some x.1 := by
      have hmem := hperm.subset (List.mem_append_right spent (List.mem_of_find?_eq_some hx))
      exact List.mem_zipIdx_iff_getElem?.mp hmem
    rw [List.filter_append, List.map_append]
    exact List.rel_append hadmits (.cons ⟨x.1, svn, hplace, by rw [hfeed], hle⟩ .nil)

theorem Ledger.take (h : Ledger imports seen p) (f : FoundFragment) :
    Ledger imports (seen ++ [f]) (p.take f) := by
  have hlength := h.verdicts.length_eq
  obtain ⟨i, svn, hfind, hle, habout, htake⟩ | ⟨d, habout, hd, htake⟩ := take_cases p f
  · rw [htake]
    refine ⟨verdicts_append h.verdicts habout, ?_, h.balanced.accept hfind hle⟩
    rw [admitted_append hlength habout, h.texts, List.map_append]
    rfl
  · rw [htake]
    refine ⟨verdicts_append h.verdicts habout, ?_, h.balanced.reject hd⟩
    simp [admitted_append hlength habout, h.texts, hd]

theorem Ledger.foldl_take (h : Ledger imports seen p) (fs : List FoundFragment) :
    Ledger imports (seen ++ fs) (fs.foldl Progress.take p) := by
  induction fs generalizing seen p with
  | nil => rwa [List.append_nil]
  | cons f fs ih =>
    rw [List.append_cons]
    exact ih (h.take f)

theorem calls_take (p : Progress) (f : FoundFragment) : (p.take f).calls = p.calls := by
  obtain ⟨i, svn, -, -, -, htake⟩ | ⟨d, -, -, htake⟩ := take_cases p f <;> rw [htake]

theorem calls_foldl_take (p : Progress) (fs : List FoundFragment) :
    (fs.foldl Progress.take p).calls = p.calls := by
  induction fs generalizing p with
  | nil => rfl
  | cons f fs ih => exact (ih (p.take f)).trans (calls_take p f)

def answerTo (d : Discovery) : DiscoveryCall → Checked (List FoundFragment)
  | .image image => d.attached image
  | .standalone imports => d.standalone imports

def found (d : Discovery) (call : DiscoveryCall) : List FoundFragment :=
  match answerTo d call with
  | .ok fs => fs
  | .error _ => []

/-- The invariant between questions: what has been seen are the answers so far. -/
def Audited (d : Discovery) (imports : List FragmentImport) (p : Progress) : Prop :=
  Ledger imports (p.calls.flatMap (found d)) p

theorem audited_start (d : Discovery) (imports : List FragmentImport) :
    Audited d imports (.start imports) := by
  refine ⟨.nil, rfl, [], imports.zipIdx, List.Perm.refl _, ?_, .nil⟩
  exact (List.zipIdx_map_fst 0 imports).symm

theorem Ledger.unavailable (h : Ledger imports seen p) (source : String) (e : PolicyError) :
    Ledger imports seen { p with decisions := p.decisions ++ [.unavailable source e] } := by
  have hverdicts : (p.decisions ++ [Decision.unavailable source e]).filter (·.isVerdict) =
      p.decisions.filter (·.isVerdict) := by
    simp [Decision.isVerdict]
  refine ⟨?_, ?_, h.balanced.reject rfl⟩
  · rw [hverdicts]
    exact h.verdicts
  · rw [admitted, judged, hverdicts]
    exact h.texts

theorem Audited.answer {d : Discovery} (h : Audited d imports p) (call : DiscoveryCall)
    (source : String) : Audited d imports (p.answer call source (answerTo d call)) := by
  have hledger : Ledger imports (p.calls.flatMap (found d)) { p with calls := p.calls ++ [call] } :=
    ⟨h.verdicts, h.texts, h.balanced⟩
  unfold Audited Progress.answer
  cases ha : answerTo d call with
  | ok fs =>
    have hfound : found d call = fs := by rw [found, ha]
    simp only [calls_foldl_take, List.flatMap_append, List.flatMap_singleton, hfound]
    exact hledger.foldl_take fs
  | error e =>
    have hfound : found d call = [] := by rw [found, ha]
    simp only [List.flatMap_append, List.flatMap_singleton, hfound, List.append_nil]
    exact hledger.unavailable source e

theorem Audited.foldl_askImage {d : Discovery} (h : Audited d imports p) (images : List String) :
    Audited d imports (images.foldl (Progress.askImage d) p) := by
  induction images generalizing p with
  | nil => exact h
  | cons image images ih => exact ih (h.answer (.image image) image)

theorem Audited.askStandalone {d : Discovery} (h : Audited d imports p) :
    Audited d imports (p.askStandalone d) := by
  unfold Progress.askStandalone
  split
  · exact h
  · exact h.answer (.standalone p.imports) "standalone"

def progress (d : Discovery) (containers : List Container) (imports : List FragmentImport) :
    Progress :=
  ((Container.images containers).foldl (Progress.askImage d) (.start imports)).askStandalone d

theorem resolve_eq (d : Discovery) (containers : List Container) (imports : List FragmentImport) :
    resolve d containers imports =
      let p := progress d containers imports
      let records := p.accepted.flatMap (recordsOf · |>.1)
      ⟨containers.filter (·.id ∉ records.filterMap recordId?),
        containers.filter (·.id ∈ records.filterMap recordId?), records,
        p.decisions ++ p.accepted.flatMap (recordsOf · |>.2), p.calls⟩ :=
  rfl

theorem audited_progress (d : Discovery) (containers : List Container)
    (imports : List FragmentImport) : Audited d imports (progress d containers imports) :=
  ((audited_start d imports).foldl_askImage (Container.images containers)).askStandalone

structure Trustworthy (d : Discovery) (imports : List FragmentImport) (r : Resolution) : Prop where
  /-- The decisions on fragments are on those that were found, in order, and say what holds. -/
  verdicts : List.Forall₂ (fun f d ↦ d.About f) (r.calls.flatMap (found d))
    (r.decisions.filter (·.isVerdict))
  /-- No import admits two fragments, and none admits a fragment below its least version. -/
  admits : ∃ places : List Nat, places.Nodup ∧
    List.Forall₂ (Admits imports) places (r.decisions.filter (·.isAccepted))
  records : r.fragmentContainers =
    (judged (r.calls.flatMap (found d)) r.decisions).flatMap contribution
  covered : ∀ c ∈ r.covered, ∃ f feed svn records,
    (f, .accepted feed svn) ∈ judged (r.calls.flatMap (found d)) r.decisions ∧
      PolicyText.containers f.text = .ok records ∧ c.id ∈ records.filterMap recordId?

theorem flatMap_contribution (seen : List FoundFragment) (ds : List Decision) :
    (judged seen ds).flatMap contribution =
      ((admitted seen ds).map (·.text)).flatMap (recordsOf · |>.1) := by
  rw [admitted, List.map_map, List.flatMap_map]
  induction judged seen ds with
  | nil => rfl
  | cons j js ih =>
    obtain ⟨f, d⟩ := j
    rw [List.flatMap_cons, List.filter_cons, ih]
    cases h : d.isAccepted with
    | true => rw [contribution_of_isAccepted h, if_pos rfl, List.flatMap_cons, Function.comp_apply]
    | false => rw [contribution_of_not_isAccepted h, if_neg Bool.false_ne_true, List.nil_append]

theorem isVerdict_of_mem_recordsOf {text : String} {d : Decision} (h : d ∈ (recordsOf text).2) :
    d.isVerdict = false := by
  unfold recordsOf at h
  split at h
  · simp at h
  · rw [List.mem_singleton.mp h]
    rfl

theorem filter_append_recordsOf (ds : List Decision) (texts : List String) {q : Decision → Bool}
    (hq : ∀ d, q d = true → d.isVerdict = true) :
    (ds ++ texts.flatMap (recordsOf · |>.2)).filter q = ds.filter q := by
  have hnone : (texts.flatMap (recordsOf · |>.2)).filter q = [] := by
    refine List.filter_eq_nil_iff.mpr fun d hd hqd ↦ ?_
    obtain ⟨text, -, hd⟩ := List.mem_flatMap.mp hd
    exact Bool.false_ne_true ((isVerdict_of_mem_recordsOf hd).symm.trans (hq d hqd))
  rw [List.filter_append, hnone, List.append_nil]

theorem exists_places (h : Balanced imports left ds) :
    ∃ places : List Nat, places.Nodup ∧
      List.Forall₂ (Admits imports) places (ds.filter (·.isAccepted)) := by
  obtain ⟨spent, rest, hperm, -, hadmits⟩ := h
  have hnodup : (imports.zipIdx.map (·.2)).Nodup := by
    rw [List.zipIdx_map_snd]
    exact List.nodup_range'
  have hspent := (hperm.map (·.2)).nodup_iff.mpr hnodup
  rw [List.map_append] at hspent
  exact ⟨spent.map (·.2), (List.nodup_append.mp hspent).1, hadmits⟩

theorem exists_of_mem_contribution {j : FoundFragment × Decision} {record : Json}
    (h : record ∈ contribution j) : ∃ feed svn records, j.2 = .accepted feed svn ∧
      PolicyText.containers j.1.text = .ok records ∧ record ∈ records := by
  obtain ⟨f, d⟩ := j
  unfold contribution at h
  split at h
  · next feed svn records hd hrecords => exact ⟨feed, svn, records, hd, hrecords, h⟩
  · cases h

/-- Accepted fragments are trusted by imports of their own, and nothing else is let in. -/
theorem trustworthy_resolve (d : Discovery) (containers : List Container)
    (imports : List FragmentImport) : Trustworthy d imports (resolve d containers imports) := by
  have haudit := audited_progress d containers imports
  rw [resolve_eq]
  let p := progress d containers imports
  -- Texts that can not be read add decisions at the end, but none on a fragment.
  have hverdicts : (p.decisions ++ p.accepted.flatMap (recordsOf · |>.2)).filter (·.isVerdict) =
      p.decisions.filter (·.isVerdict) :=
    filter_append_recordsOf _ _ fun _ h ↦ h
  have haccepted : (p.decisions ++ p.accepted.flatMap (recordsOf · |>.2)).filter (·.isAccepted) =
      p.decisions.filter (·.isAccepted) :=
    filter_append_recordsOf _ _ fun _ ↦ Decision.isVerdict_of_isAccepted
  have hrecords : p.accepted.flatMap (recordsOf · |>.1) = (judged (p.calls.flatMap (found d))
      (p.decisions ++ p.accepted.flatMap (recordsOf · |>.2))).flatMap contribution := by
    rw [judged, hverdicts, ← judged, flatMap_contribution, ← haudit.texts]
  refine ⟨?_, ?_, hrecords, fun c hc ↦ ?_⟩
  · exact hverdicts ▸ haudit.verdicts
  · exact haccepted ▸ exists_places haudit.balanced
  · obtain ⟨record, hrecord, hid⟩ :=
      List.mem_filterMap.mp (of_decide_eq_true (List.mem_filter.mp hc).2)
    rw [hrecords] at hrecord
    obtain ⟨⟨f, verdict⟩, hj, hrecord⟩ := List.mem_flatMap.mp hrecord
    obtain ⟨feed, svn, records, rfl, hscan, hmem⟩ := exists_of_mem_contribution hrecord
    exact ⟨f, feed, svn, records, hj, hscan, List.mem_filterMap.mpr ⟨record, hmem, hid⟩⟩

end Resolution

end ConfidentialPolicy

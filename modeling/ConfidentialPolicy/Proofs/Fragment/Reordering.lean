import ConfidentialPolicy.Proofs.FirstOccurrences
import ConfidentialPolicy.Proofs.Fragment.Isolation
import ConfidentialPolicy.Proofs.Fragment.Progress
import ConfidentialPolicy.Proofs.KeyMap
import Mathlib.Data.List.Nodup
import Mathlib.Data.List.Perm.Basic

namespace ConfidentialPolicy

def FragmentImport.trusts (i : FragmentImport) (f : FoundFragment) : Bool :=
  i.feed == f.feed && (PolicyText.svn? f.text).any (i.minimumSvn ≤ ·)

theorem FragmentImport.feed_eq_of_trusts {i : FragmentImport} {f : FoundFragment}
    (h : i.trusts f = true) : i.feed = f.feed :=
  eq_of_beq (Bool.and_eq_true_iff.mp h).1

namespace Resolution

def trusted (imports : List FragmentImport) (fs : List FoundFragment) : List FoundFragment :=
  fs.filter fun f ↦ imports.any (·.trusts f)

def unmet (imports : List FragmentImport) (fs : List FoundFragment) : List FragmentImport :=
  imports.filter fun i ↦ !fs.any i.trusts

variable {imports : List FragmentImport} {f : FoundFragment} {p : Progress}

theorem any_trusts_of_find? (h : (imports.map (·.feed)).Nodup) {i : FragmentImport}
    (hfind : imports.find? (·.feed == f.feed) = some i) :
    imports.any (·.trusts f) = i.trusts f := by
  have hi := List.mem_of_find?_eq_some hfind
  have hfeed : i.feed = f.feed := by simpa using List.find?_some hfind
  rw [Bool.eq_iff_iff, List.any_eq_true]
  constructor
  · rintro ⟨j, hj, htrusts⟩
    have hsame := (FragmentImport.feed_eq_of_trusts htrusts).trans hfeed.symm
    rwa [List.inj_on_of_nodup_map h hj hi hsame] at htrusts
  · intro htrusts
    exact ⟨i, hi, htrusts⟩

theorem isAccepted_judge (h : (imports.map (·.feed)).Nodup) (f : FoundFragment) :
    (judge imports f).isAccepted = imports.any (·.trusts f) := by
  cases hfind : imports.find? (·.feed == f.feed) with
  | none =>
    have hnone : imports.any (·.trusts f) = false := by
      apply List.any_eq_false.mpr
      intro i hi htrusts
      apply List.find?_eq_none.mp hfind i hi
      exact beq_iff_eq.mpr (FragmentImport.feed_eq_of_trusts htrusts)
    rw [judge_eq_untrusted hfind, hnone]
    rfl
  | some i =>
    have hfeed : (i.feed == f.feed) = true := by simpa using List.find?_some hfind
    rw [any_trusts_of_find? h hfind, FragmentImport.trusts, hfeed, judge, hfind]
    cases PolicyText.svn? f.text with
    | none => rfl
    | some svn =>
      by_cases hlt : svn < i.minimumSvn
      · simp [hlt, Decision.isAccepted, UInt64.not_le.mpr hlt]
      · simp [hlt, Decision.isAccepted, UInt64.not_lt.mp hlt]

theorem eraseP_eq_filter (h : (imports.map (·.feed)).Nodup) (feed : String) :
    imports.eraseP (·.feed == feed) = imports.filter (·.feed != feed) := by
  induction imports with
  | nil => rfl
  | cons i imports ih =>
    obtain ⟨hi, hrest⟩ := List.nodup_cons.mp h
    by_cases hfeed : i.feed = feed
    · have hall : ∀ j ∈ imports, (j.feed != feed) = true := by
        intro j hj
        rw [bne_iff_ne]
        intro hsame
        exact hi (List.mem_map.mpr ⟨j, hj, hsame.trans hfeed.symm⟩)
      simp [hfeed, List.filter_eq_self.mpr hall]
    · simp [hfeed, ih hrest]

theorem imports_take_of_distinct (h : (p.imports.map (·.feed)).Nodup) (f : FoundFragment) :
    (p.take f).imports = p.imports.filter fun i ↦ !i.trusts f := by
  rw [imports_take, isAccepted_judge h]
  split
  · next hany =>
    obtain ⟨i, hi, htrusts⟩ := List.any_eq_true.mp hany
    have hfeed := FragmentImport.feed_eq_of_trusts htrusts
    rw [eraseP_eq_filter h]
    apply List.filter_congr
    intro j hj
    by_cases hj' : j.feed = f.feed
    · rw [List.inj_on_of_nodup_map h hj hi (hj'.trans hfeed.symm), htrusts, hfeed]
      simp
    · have hout : j.trusts f = false := by simp [FragmentImport.trusts, hj']
      simp [hj', hout]
  · next hany =>
    symm
    apply List.filter_eq_self.mpr
    intro i hi
    rw [Bool.not_eq_true', Bool.eq_false_iff]
    intro htrusts
    exact hany (List.any_eq_true.mpr ⟨i, hi, htrusts⟩)

theorem not_any_of_countP_le_one {α : Type} {q : α → Bool} {a : α} {as : List α} (ha : q a = true)
    (h : (a :: as).countP q ≤ 1) : as.any q = false := by
  rw [List.countP_cons_of_pos ha] at h
  have hzero : as.countP q = 0 := by omega
  rw [List.any_eq_false]
  exact List.countP_eq_zero.mp hzero

/-- Fragments that are met by imports of their own are accepted, and use these imports up. -/
theorem foldl_take_of_single {fs : List FoundFragment} (h : (p.imports.map (·.feed)).Nodup)
    (hsingle : ∀ i ∈ p.imports, fs.countP i.trusts ≤ 1) :
    (fs.foldl Progress.take p).accepted =
      p.accepted ++ (trusted p.imports fs).map (·.text) ∧
    (fs.foldl Progress.take p).imports = unmet p.imports fs := by
  induction fs generalizing p with
  | nil => simp [trusted, unmet]
  | cons f fs ih =>
    have hleft := imports_take_of_distinct h f
    have hdistinct : ((p.take f).imports.map (·.feed)).Nodup := by
      rw [hleft]
      exact h.sublist (List.filter_sublist.map _)
    have hsingle' : ∀ i ∈ (p.take f).imports, fs.countP i.trusts ≤ 1 := by
      intro i hi
      rw [hleft] at hi
      have hle := (List.sublist_cons_self f fs).countP_le (p := i.trusts)
      exact Nat.le_trans hle (hsingle i (List.mem_of_mem_filter hi))
    obtain ⟨haccepted, himports⟩ := ih hdistinct hsingle'
    -- An import that trusts this fragment trusts none of the others.
    have hothers : ∀ g ∈ fs, (p.take f).imports.any (·.trusts g) = p.imports.any (·.trusts g) := by
      intro g hg
      rw [hleft, List.any_filter, Bool.eq_iff_iff, List.any_eq_true, List.any_eq_true]
      constructor
      · rintro ⟨i, hi, htrusts⟩
        exact ⟨i, hi, (Bool.and_eq_true_iff.mp htrusts).2⟩
      · rintro ⟨i, hi, htrusts⟩
        refine ⟨i, hi, ?_⟩
        cases hf : i.trusts f with
        | false => simpa using htrusts
        | true =>
          have hnone := List.any_eq_false.mp (not_any_of_countP_le_one hf (hsingle i hi)) g hg
          exact absurd htrusts hnone
    rw [List.foldl_cons, haccepted, himports, accepted_take, isAccepted_judge h]
    constructor
    · rw [trusted, trusted, List.filter_congr hothers, List.filter_cons]
      split <;> simp
    · rw [unmet, unmet, hleft, List.filter_filter]
      apply List.filter_congr
      intro i _
      rw [List.any_cons, Bool.not_or, Bool.and_comm]

def attachedTo (d : Discovery) (containers : List Container) : List FoundFragment :=
  (Container.images containers).flatMap fun image ↦ found d (.image image)

/-- No two imports name one feed, no import trusts two of the attached fragments, and no question
fails. -/
structure Unambiguous (d : Discovery) (choose : String → Option FoundFragment)
    (containers : List Container) (imports : List FragmentImport) : Prop where
  distinct : (imports.map (·.feed)).Nodup
  single : ∀ i ∈ imports, (attachedTo d containers).countP i.trusts ≤ 1
  answers : ∀ image, ∃ fs, d.attached image = .ok fs
  chooses : Chooses d choose
  ownFeed : ∀ feed f, choose feed = some f → f.feed = feed

variable {d e : Discovery} {choose : String → Option FoundFragment}
  {containers containers' : List Container} {imports' : List FragmentImport}

theorem foldl_askImage_of_ok (h : ∀ image, ∃ fs, d.attached image = .ok fs) (images : List String)
    (p : Progress) : ∃ calls, images.foldl (Progress.askImage d) p =
      { (images.flatMap fun image ↦ found d (.image image)).foldl Progress.take p with calls } := by
  induction images generalizing p with
  | nil => exact ⟨p.calls, rfl⟩
  | cons image images ih =>
    obtain ⟨fs, hfs⟩ := h image
    have hfound : found d (.image image) = fs := by rw [found, answerTo, hfs]
    obtain ⟨calls, hcalls⟩ := ih (p.askImage d image)
    refine ⟨calls, ?_⟩
    rw [List.foldl_cons, hcalls, List.flatMap_cons, List.foldl_append, hfound]
    simp only [Progress.askImage, Progress.answer, hfs, foldl_take_withCalls]

theorem Unambiguous.foldl_askImage (h : Unambiguous d choose containers imports) :
    let p := (Container.images containers).foldl (Progress.askImage d) (.start imports)
    p.accepted = (trusted imports (attachedTo d containers)).map (·.text) ∧
      p.imports = unmet imports (attachedTo d containers) := by
  intro p
  obtain ⟨calls, hp⟩ :=
    foldl_askImage_of_ok h.answers (Container.images containers) (.start imports)
  rw [show p = _ from hp]
  exact foldl_take_of_single (p := .start imports) h.distinct h.single

theorem map_feed_chosenFor (h : ∀ feed f, choose feed = some f → f.feed = feed)
    (imports : List FragmentImport) :
    ((chosenFor choose imports).map (·.feed)).Sublist (imports.map (·.feed)) := by
  induction imports with
  | nil => exact List.Sublist.refl _
  | cons i imports ih =>
    have hcons : chosenFor choose (i :: imports) =
        (choose i.feed).toList ++ chosenFor choose imports := by
      cases hi : choose i.feed <;> simp [chosenFor, hi]
    rw [hcons, List.map_append, List.map_cons]
    cases hi : choose i.feed with
    | none => exact ih.cons _
    | some f =>
      rw [← h i.feed f hi]
      exact ih.cons_cons _

/-- Of fragments on feeds of their own, an import trusts one at most. -/
theorem countP_trusts_le_one {fs : List FoundFragment} (h : (fs.map (·.feed)).Nodup)
    (i : FragmentImport) : fs.countP i.trusts ≤ 1 := by
  have hfeed : ∀ f ∈ fs, i.trusts f = true → (f.feed == i.feed) = true :=
    fun f _ htrusts ↦ beq_iff_eq.mpr (FragmentImport.feed_eq_of_trusts htrusts).symm
  calc fs.countP i.trusts ≤ fs.countP (·.feed == i.feed) := List.countP_mono_left hfeed
    _ = (fs.map (·.feed)).count i.feed := by rw [List.count, List.countP_map]; rfl
    _ ≤ 1 := List.nodup_iff_count_le_one.mp h i.feed

theorem Unambiguous.accepted_askStandalone (h : Unambiguous d choose containers imports)
    {p : Progress} (hp : (p.imports.map (·.feed)).Nodup) : (p.askStandalone d).accepted =
      p.accepted ++ (trusted p.imports (chosenFor choose p.imports)).map (·.text) := by
  obtain ⟨calls, hend⟩ := h.chooses.askStandalone p
  have hchosen := hp.sublist (map_feed_chosenFor h.ownFeed p.imports)
  rw [hend]
  exact (foldl_take_of_single hp fun i _ ↦ countP_trusts_le_one hchosen i).1

theorem Unambiguous.accepted_progress (h : Unambiguous d choose containers imports) :
    let left := unmet imports (attachedTo d containers)
    (progress d containers imports).accepted =
      (trusted imports (attachedTo d containers)).map (·.text) ++
        (trusted left (chosenFor choose left)).map (·.text) := by
  obtain ⟨haccepted, hleft⟩ := h.foldl_askImage
  rw [progress, h.accepted_askStandalone, haccepted, hleft]
  rw [hleft]
  exact h.distinct.sublist (List.filter_sublist.map _)

/-- Images have the same fragments in some other order, and imports have the same ones. -/
structure Reordered (d e : Discovery) : Prop where
  attached : ∀ image fs, d.attached image = .ok fs → ∃ gs, e.attached image = .ok gs ∧ fs.Perm gs
  standalone : ∀ asked, d.standalone asked = e.standalone asked

theorem trusted_perm {fs gs : List FoundFragment} (himports : imports.Perm imports')
    (hfs : fs.Perm gs) : (trusted imports fs).Perm (trusted imports' gs) := by
  have hany : (fun f ↦ imports.any (·.trusts f)) = fun f ↦ imports'.any (·.trusts f) :=
    funext fun f ↦ himports.any_eq
  rw [trusted, trusted, hany]
  exact hfs.filter _

theorem unmet_perm {fs gs : List FoundFragment} (himports : imports.Perm imports')
    (hfs : fs.Perm gs) : (unmet imports fs).Perm (unmet imports' gs) := by
  have hany : (fun i ↦ !fs.any i.trusts) = fun i : FragmentImport ↦ !gs.any i.trusts :=
    funext fun i ↦ congrArg not hfs.any_eq
  rw [unmet, unmet, hany]
  exact himports.filter _

theorem images_perm (h : containers.Perm containers') :
    (Container.images containers).Perm (Container.images containers') := by
  have hleft := Container.firstOccurrences_images containers
  have hright := Container.firstOccurrences_images containers'
  apply (List.perm_ext_iff_of_nodup hleft.nodup hright.nodup).mpr
  intro image
  rw [hleft.mem_iff, hright.mem_iff]
  exact (h.map (·.image)).mem_iff

theorem Reordered.attachedTo_perm (hde : Reordered d e)
    (h : ∀ image, ∃ fs, d.attached image = .ok fs) (hcontainers : containers.Perm containers') :
    (attachedTo d containers).Perm (attachedTo e containers') := by
  apply (images_perm hcontainers).flatMap
  intro image _
  obtain ⟨fs, hfs⟩ := h image
  obtain ⟨gs, hgs, hperm⟩ := hde.attached image fs hfs
  simpa only [found, answerTo, hfs, hgs] using hperm

theorem Unambiguous.reordered (h : Unambiguous d choose containers imports)
    (hde : Reordered d e) (hcontainers : containers.Perm containers')
    (himports : imports.Perm imports') : Unambiguous e choose containers' imports' := by
  refine ⟨(himports.map _).nodup_iff.mp h.distinct, ?_, ?_, ?_, h.ownFeed⟩
  · intro i hi
    rw [← (hde.attachedTo_perm h.answers hcontainers).countP_eq]
    exact h.single i (himports.mem_iff.mpr hi)
  · intro image
    obtain ⟨fs, hfs⟩ := h.answers image
    obtain ⟨gs, hgs, -⟩ := hde.attached image fs hfs
    exact ⟨gs, hgs⟩
  · intro asked
    rw [← hde.standalone, h.chooses]

theorem Unambiguous.accepted_perm (h : Unambiguous d choose containers imports)
    (hde : Reordered d e) (hcontainers : containers.Perm containers')
    (himports : imports.Perm imports') :
    (progress d containers imports).accepted.Perm (progress e containers' imports').accepted := by
  have hattached := hde.attachedTo_perm h.answers hcontainers
  have hleft := unmet_perm himports hattached
  rw [h.accepted_progress, (h.reordered hde hcontainers himports).accepted_progress]
  apply List.Perm.append
  · exact (trusted_perm himports hattached).map _
  · exact (trusted_perm hleft (hleft.filterMap _)).map _

/-- The same ids are covered through the same records, and cut the second containers in two. -/
structure SameMatch (containers : List Container) (r s : Resolution) : Prop where
  ids : s.coveredIds = r.coveredIds
  records : s.fragmentContainers.Perm r.fragmentContainers
  covered : s.covered = containers.filter (·.id ∈ r.coveredIds)
  inline : s.inline = containers.filter (·.id ∉ r.coveredIds)

theorem mem_coveredIds {r : Resolution} {id : String} :
    id ∈ r.coveredIds ↔ ∃ c ∈ r.covered, c.id = id := by
  rw [coveredIds, KeyMap.mem_keys_ofList]
  simp [KeyMap.keys]

theorem coveredIds_congr {r s : Resolution} (h : ∀ id, id ∈ s.coveredIds ↔ id ∈ r.coveredIds) :
    s.coveredIds = r.coveredIds :=
  congrArg KeyMap.keys
    (KeyMap.eq_of_mem_keys_iff (KeyMap.sorted_ofList _) (KeyMap.sorted_ofList _) h)

theorem mem_coveredIds_resolve {id : String} :
    id ∈ (resolve d containers imports).coveredIds ↔ (∃ c ∈ containers, c.id = id) ∧
      id ∈ (resolve d containers imports).fragmentContainers.filterMap recordId? := by
  rw [mem_coveredIds]
  constructor
  · rintro ⟨c, hc, rfl⟩
    obtain ⟨hmem, hid⟩ := List.mem_filter.mp hc
    exact ⟨⟨c, hmem, rfl⟩, of_decide_eq_true hid⟩
  · rintro ⟨⟨c, hmem, rfl⟩, hid⟩
    exact ⟨c, List.mem_filter.mpr ⟨hmem, decide_eq_true hid⟩, rfl⟩

/-- What is covered does not depend on the order of containers, imports and attached fragments. -/
theorem sameMatch_resolve (h : Unambiguous d choose containers imports) (hde : Reordered d e)
    (hcontainers : containers.Perm containers') (himports : imports.Perm imports') :
    SameMatch containers' (resolve d containers imports) (resolve e containers' imports') := by
  -- All that is compared is made of the accepted fragments, and these are the same up to order.
  have haccepted := h.accepted_perm hde hcontainers himports
  have hrecords : (resolve e containers' imports').fragmentContainers.Perm
      (resolve d containers imports).fragmentContainers :=
    haccepted.symm.flatMap_right _
  have hids (id : String) := (hrecords.filterMap recordId?).mem_iff (a := id)
  have hcovered : ∀ c ∈ containers',
      (c.id ∈ (resolve e containers' imports').fragmentContainers.filterMap recordId? ↔
        c.id ∈ (resolve d containers imports).coveredIds) := by
    intro c hc
    rw [mem_coveredIds_resolve, hids]
    exact ⟨fun hid ↦ ⟨⟨c, hcontainers.mem_iff.mpr hc, rfl⟩, hid⟩, And.right⟩
  constructor
  · apply coveredIds_congr
    intro id
    rw [mem_coveredIds_resolve, mem_coveredIds_resolve, hids]
    simp only [hcontainers.mem_iff]
  · exact hrecords
  · apply List.filter_congr
    intro c hc
    rw [decide_eq_decide, ← hcovered c hc]
    rfl
  · apply List.filter_congr
    intro c hc
    rw [decide_eq_decide, ← hcovered c hc]
    rfl

def secondContainer : Container := { pauseContainer with id := "second", image := "second" }

def kept (feed : String) : Option FoundFragment :=
  if feed = "other" then
    some ⟨feed, "svn := \"3\"\ncontainers := [\x7b\"id\": \"second\"\x7d]"⟩
  else none

def stock (fs : List FoundFragment) : Discovery where
  attached image := .ok (if image = "second" then fs else [])
  standalone asked := .ok (chosenFor kept asked)

/-- The first import is met by an attached fragment, the second by the one that is chosen for it. -/
theorem sameMatch_resolve_stock :
    let fs : List FoundFragment := [⟨"foreign", ""⟩, ⟨"feed", coveringText⟩]
    let containers := [pauseContainer, secondContainer]
    Unambiguous (stock fs) kept containers namedFeed ∧ Reordered (stock fs) (stock fs.reverse) ∧
    SameMatch containers.reverse (resolve (stock fs) containers namedFeed)
      (resolve (stock fs.reverse) containers.reverse namedFeed.reverse) ∧
    (resolve (stock fs) containers namedFeed).coveredIds =
      ["mcr.microsoft.com/oss/kubernetes/pause:3.6", "second"] := by
  intro fs containers
  have hunambiguous : Unambiguous (stock fs) kept containers namedFeed := by
    refine ⟨by decide, by decide +kernel, ?_, fun _ ↦ rfl, ?_⟩
    · intro image
      exact ⟨_, rfl⟩
    · intro feed f hf
      unfold kept at hf
      split at hf
      · cases hf
        rfl
      · cases hf
  have hreordered : Reordered (stock fs) (stock fs.reverse) := by
    refine ⟨?_, fun _ ↦ rfl⟩
    intro image found hfound
    cases hfound
    refine ⟨_, rfl, ?_⟩
    split
    · exact fs.reverse_perm.symm
    · exact List.Perm.refl _
  refine ⟨hunambiguous, hreordered, ?_, by decide +kernel⟩
  exact sameMatch_resolve hunambiguous hreordered containers.reverse_perm.symm
    namedFeed.reverse_perm.symm

end Resolution

end ConfidentialPolicy

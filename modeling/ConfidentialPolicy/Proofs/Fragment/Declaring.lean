import ConfidentialPolicy.Proofs.Fragment.Isolation
import ConfidentialPolicy.Proofs.Fragment.Progress
import Mathlib.Data.List.Flatten

namespace ConfidentialPolicy.Resolution

variable {m : FragmentImport} {p q : Progress}

/-- Everything that was accepted on one side was accepted on the other, in the same order. -/
structure Includes (p q : Progress) : Prop where
  texts : p.accepted.Sublist q.accepted
  decisions : (p.decisions.filter (·.isAccepted)).Sublist (q.decisions.filter (·.isAccepted))

/-- The other side has accepted more, and still has the new import or has used it up. -/
structure Ahead (m : FragmentImport) (p q : Progress) : Prop extends Includes p q where
  left : q.imports = p.imports ++ [m] ∨ q.imports = p.imports

theorem filter_decisions_take (p : Progress) (f : FoundFragment) :
    (p.take f).decisions.filter (·.isAccepted) = p.decisions.filter (·.isAccepted) ++
      if (judge p.imports f).isAccepted then [judge p.imports f] else [] := by
  rw [decisions_take, List.filter_append, List.filter_singleton, cond_eq_ite]

/-- Another fragment, if either side accepts it only where the other one does, with the same
decision. -/
theorem Includes.take (h : Includes p q) {f : FoundFragment}
    (hf : (judge p.imports f).isAccepted = true → judge q.imports f = judge p.imports f) :
    Includes (p.take f) (q.take f) := by
  constructor
  · rw [accepted_take, accepted_take]
    refine h.texts.append ?_
    split
    · next hp =>
      rw [hf hp, if_pos hp]
    · exact List.nil_sublist _
  · rw [filter_decisions_take, filter_decisions_take]
    refine h.decisions.append ?_
    split
    · next hp =>
      rw [hf hp, if_pos hp]
    · exact List.nil_sublist _

theorem Includes.take_right (h : Includes p q) (f : FoundFragment) : Includes p (q.take f) := by
  constructor
  · rw [accepted_take]
    exact h.texts.trans (List.sublist_append_left _ _)
  · rw [filter_decisions_take]
    exact h.decisions.trans (List.sublist_append_left _ _)

theorem Includes.foldl_take_right (h : Includes p q) (fs : List FoundFragment) :
    Includes p (fs.foldl Progress.take q) := by
  induction fs generalizing q with
  | nil => exact h
  | cons f fs ih => exact ih (h.take_right f)

theorem Ahead.take_of_same (h : Includes p q) (hleft : q.imports = p.imports) (f : FoundFragment) :
    Ahead m (p.take f) (q.take f) := by
  refine ⟨h.take fun _ ↦ by rw [hleft], .inr ?_⟩
  rw [imports_take, imports_take, hleft]

theorem Ahead.take_of_more (h : Includes p q) (hleft : q.imports = p.imports ++ [m])
    (f : FoundFragment) : Ahead m (p.take f) (q.take f) := by
  cases hfind : p.imports.find? (·.feed == f.feed) with
  | some i =>
    -- Both sides judge by the same import.
    have hjudge : judge q.imports f = judge p.imports f := by
      apply judge_congr
      rw [hleft, List.find?_append, hfind, Option.some_or]
    refine ⟨h.take fun _ ↦ hjudge, .inl ?_⟩
    rw [imports_take, imports_take, hjudge, hleft]
    split
    · exact List.eraseP_append_left (List.find?_some hfind) _ (List.mem_of_find?_eq_some hfind)
    · rfl
  | none =>
    -- Only the new import can admit the fragment.
    have hjudge := judge_eq_untrusted hfind
    have hout := List.find?_eq_none.mp hfind
    refine ⟨h.take fun hp ↦ ?_, ?_⟩
    · rw [hjudge] at hp
      cases hp
    · have hp : (p.take f).imports = p.imports := by
        rw [imports_take, hjudge]
        rfl
      rw [hp, imports_take, hleft]
      split
      · rw [List.eraseP_append_right _ hout]
        by_cases hm : m.feed = f.feed
        · right
          simp [hm]
        · left
          simp [hm]
      · exact .inl rfl

theorem Ahead.take (h : Ahead m p q) (f : FoundFragment) : Ahead m (p.take f) (q.take f) := by
  rcases h.left with hleft | hleft
  · exact .take_of_more h.toIncludes hleft f
  · exact .take_of_same h.toIncludes hleft f

theorem Ahead.foldl_take (h : Ahead m p q) (fs : List FoundFragment) :
    Ahead m (fs.foldl Progress.take p) (fs.foldl Progress.take q) := by
  induction fs generalizing p q with
  | nil => exact h
  | cons f fs ih => exact ih (h.take f)

/-- The same answer to the same question. -/
theorem Ahead.answer (h : Ahead m p q) (call : DiscoveryCall) (source : String)
    (found : Checked (List FoundFragment)) :
    Ahead m (p.answer call source found) (q.answer call source found) := by
  have hcall : Ahead m { p with calls := p.calls ++ [call] } { q with calls := q.calls ++ [call] } :=
    ⟨⟨h.texts, h.decisions⟩, h.left⟩
  cases found with
  | ok fs => exact hcall.foldl_take fs
  | error e =>
    refine ⟨⟨h.texts, ?_⟩, h.left⟩
    simpa [Progress.answer, Decision.isAccepted] using h.decisions

theorem Ahead.foldl_askImage (h : Ahead m p q) (d : Discovery) (images : List String) :
    Ahead m (images.foldl (Progress.askImage d) p) (images.foldl (Progress.askImage d) q) := by
  induction images generalizing p q with
  | nil => exact h
  | cons image images ih => exact ih (h.answer (.image image) image (d.attached image))

theorem Ahead.askStandalone {d : Discovery} {choose : String → Option FoundFragment}
    (h : Ahead m p q) (hd : Chooses d choose) :
    Includes (p.askStandalone d) (q.askStandalone d) := by
  obtain ⟨calls, hp⟩ := hd.askStandalone p
  obtain ⟨calls', hq⟩ := hd.askStandalone q
  have hfound := h.foldl_take (chosenFor choose p.imports)
  have hincludes : Includes ((chosenFor choose p.imports).foldl Progress.take p)
      ((chosenFor choose q.imports).foldl Progress.take q) := by
    rcases h.left with hleft | hleft
    · rw [hleft, chosenFor_append, List.foldl_append]
      exact hfound.toIncludes.foldl_take_right _
    · rw [hleft]
      exact hfound.toIncludes
  rw [hp, hq]
  exact ⟨hincludes.texts, hincludes.decisions⟩

/-- Nothing that one resolution covers or accepts is lost in the other. -/
structure Extends (r s : Resolution) : Prop where
  covered : r.covered.Sublist s.covered
  fragmentContainers : r.fragmentContainers.Sublist s.fragmentContainers
  accepted : (r.decisions.filter (·.isAccepted)).Sublist (s.decisions.filter (·.isAccepted))

/-- Declaring one more import uncovers no container. -/
theorem extends_resolve_append {d : Discovery} {choose : String → Option FoundFragment}
    (hd : Chooses d choose) (containers : List Container) (imports : List FragmentImport)
    (m : FragmentImport) :
    Extends (resolve d containers imports) (resolve d containers (imports ++ [m])) := by
  have hstart : Ahead m (.start imports) (.start (imports ++ [m])) :=
    ⟨⟨List.Sublist.refl _, List.Sublist.refl _⟩, .inl rfl⟩
  have hend : Includes (progress d containers imports) (progress d containers (imports ++ [m])) :=
    (hstart.foldl_askImage d (Container.images containers)).askStandalone hd
  have hrecords := hend.texts.flatMap (recordsOf · |>.1)
  rw [resolve_eq, resolve_eq]
  refine ⟨?_, hrecords, ?_⟩
  · apply List.monotone_filter_right
    intro c hc
    have hid := (hrecords.filterMap recordId?).subset (of_decide_eq_true hc)
    exact decide_eq_true hid
  · rw [filter_append_recordsOf _ _ fun _ ↦ Decision.isVerdict_of_isAccepted,
      filter_append_recordsOf _ _ fun _ ↦ Decision.isVerdict_of_isAccepted]
    exact hend.decisions

def shelved (feed : String) : Option FoundFragment :=
  if feed = "feed" then some ⟨feed, coveringText⟩ else none

def shelf : Discovery where
  attached image := .error (.image image)
  standalone asked := .ok (chosenFor shelved asked)

/-- The new import shares its feed with an older one, so the fragment is found twice. -/
theorem extends_resolve_shelf :
    Chooses shelf shelved ∧
    (resolve shelf [pauseContainer] namedFeed).covered = [pauseContainer] ∧
    Extends (resolve shelf [pauseContainer] namedFeed)
      (resolve shelf [pauseContainer] (namedFeed ++ [⟨"feed", "issuer", 0, []⟩])) := by
  have hchooses : Chooses shelf shelved := fun _ ↦ rfl
  refine ⟨hchooses, by decide +kernel, ?_⟩
  exact extends_resolve_append hchooses [pauseContainer] namedFeed ⟨"feed", "issuer", 0, []⟩

end ConfidentialPolicy.Resolution

import ConfidentialPolicy.Proofs.KeyMap
import Mathlib.Data.List.Basic
import Mathlib.Data.List.Induction

namespace ConfidentialPolicy.KeyMap

variable {α γ : Type}

def collect (key : γ → String) (f : α → γ → α) (init : α) (cs : List γ) : KeyMap α :=
  cs.foldl (fun m c ↦ update (key c) (fun a ↦ f (a.getD init) c) m) []

variable {key : γ → String} {f : α → γ → α} {init : α}

theorem collect_concat (cs : List γ) (c : γ) :
    collect key f init (cs ++ [c]) =
      update (key c) (fun a ↦ f (a.getD init) c) (collect key f init cs) := by
  rw [collect, List.foldl_append]
  rfl

theorem sorted_collect (cs : List γ) : Sorted (collect key f init cs) := by
  induction cs using List.reverseRecOn with
  | nil => exact List.Pairwise.nil
  | append_singleton cs c ih =>
    rw [collect_concat]
    exact sorted_insert ih _ _

theorem get?_collect (cs : List γ) (k : String) :
    get? (collect key f init cs) k =
      if cs.filter (key · = k) = [] then none
      else some ((cs.filter (key · = k)).foldl f init) := by
  induction cs using List.reverseRecOn with
  | nil => rfl
  | append_singleton cs c ih =>
    rw [collect_concat, update, get?_insert, List.filter_append]
    by_cases hk : key c = k
    · have hsingle : [c].filter (key · = k) = [c] := List.filter_cons_of_pos (decide_eq_true hk)
      rw [if_pos hk.symm, hk, ih, hsingle, if_neg (List.concat_ne_nil c (cs.filter _)),
        List.foldl_append]
      split
      · next hnil =>
        rw [hnil]
        rfl
      · rfl
    · have hnone : [c].filter (key · = k) = [] := List.filter_cons_of_neg (by simpa using hk)
      rw [if_neg fun h ↦ hk h.symm, ih, hnone, List.append_nil]

/-- Under each key that occurs stands what is collected from the members with that key. -/
theorem mem_collect_iff {cs : List γ} {p : String × α} :
    p ∈ collect key f init cs ↔
      (∃ c ∈ cs, key c = p.1) ∧ p.2 = (cs.filter (key · = p.1)).foldl f init := by
  obtain ⟨k, a⟩ := p
  have hoccurs : (∃ c ∈ cs, key c = k) ↔ cs.filter (key · = k) ≠ [] := by
    simp [List.filter_eq_nil_iff]
  rw [← get?_eq_some_iff_of_nodup (sorted_collect cs).nodup_keys, get?_collect, hoccurs]
  split
  · next hnil => simp [hnil]
  · next hne =>
    constructor
    · intro ha
      exact ⟨hne, (Option.some.inj ha).symm⟩
    · intro ha
      exact congrArg some ha.2.symm

theorem mem_keys_collect {cs : List γ} {k : String} :
    k ∈ keys (collect key f init cs) ↔ ∃ c ∈ cs, key c = k := by
  constructor
  · intro hk
    obtain ⟨p, hp, rfl⟩ := List.mem_map.mp hk
    exact (mem_collect_iff.mp hp).1
  · intro hk
    have hp : (k, (cs.filter (key · = k)).foldl f init) ∈ collect key f init cs :=
      mem_collect_iff.mpr ⟨hk, rfl⟩
    exact List.mem_map_of_mem hp

/-- Members told apart by keys that are all there is are the members in another order. -/
theorem flatMap_filter_perm {ks : List String} (hks : ks.Nodup) {cs : List γ}
    (h : ∀ c ∈ cs, key c ∈ ks) : (ks.flatMap fun k ↦ cs.filter (key · = k)).Perm cs := by
  induction ks generalizing cs with
  | nil =>
    have hnil : cs = [] := List.eq_nil_iff_forall_not_mem.mpr fun c hc ↦ nomatch h c hc
    rw [hnil]
    exact .nil
  | cons k ks ih =>
    obtain ⟨hk, hks⟩ := List.nodup_cons.mp hks
    -- The other keys tell apart the members that are left without those of `k`.
    have hrest : (ks.flatMap fun l ↦ cs.filter (key · = l)) =
        ks.flatMap fun l ↦ (cs.filter fun c ↦ !decide (key c = k)).filter (key · = l) := by
      refine List.flatMap_congr fun l hl ↦ ?_
      rw [List.filter_filter]
      refine List.filter_congr fun c _ ↦ ?_
      by_cases hc : key c = l
      · have hne : l ≠ k := fun hlk ↦ hk (hlk ▸ hl)
        simp [hc, hne]
      · simp [hc]
    rw [List.flatMap_cons, hrest]
    refine List.Perm.trans (List.Perm.append_left _ (ih hks ?_)) (List.filter_append_perm _ cs)
    intro c hc
    obtain ⟨hmem, hne⟩ := List.mem_filter.mp hc
    exact (List.mem_cons.mp (h c hmem)).resolve_left (by simpa using hne)

end ConfidentialPolicy.KeyMap

import ConfidentialPolicy.Container
import Mathlib.Data.List.Basic
import Mathlib.Data.List.Induction

namespace ConfidentialPolicy

variable {α : Type} [DecidableEq α] {as : List α} {a : α}

/-- The members of a list, each once, in the order of their first occurrences. -/
structure FirstOccurrences (all firsts : List α) : Prop where
  mem_iff : ∀ a, a ∈ firsts ↔ a ∈ all
  inOrder : firsts.Pairwise fun a b ↦ all.idxOf a < all.idxOf b

theorem FirstOccurrences.nodup {all firsts : List α} (h : FirstOccurrences all firsts) :
    firsts.Nodup := by
  refine h.inOrder.imp fun {a b} hlt hab ↦ ?_
  rw [hab] at hlt
  exact Nat.lt_irrefl _ hlt

theorem eraseDups_concat_of_mem (h : a ∈ as) : (as ++ [a]).eraseDups = as.eraseDups := by
  rw [List.eraseDups_append]
  simp [List.removeAll, h]

theorem eraseDups_concat_of_not_mem (h : a ∉ as) :
    (as ++ [a]).eraseDups = as.eraseDups ++ [a] := by
  rw [List.eraseDups_append]
  simp [List.removeAll, h, List.eraseDups_cons]

theorem pairwise_idxOf_concat {firsts : List α} (hfirsts : ∀ b ∈ firsts, b ∈ as)
    (h : firsts.Pairwise fun b c ↦ as.idxOf b < as.idxOf c) (a : α) :
    firsts.Pairwise fun b c ↦ (as ++ [a]).idxOf b < (as ++ [a]).idxOf c := by
  refine h.imp_of_mem fun {b c} hb hc hlt ↦ ?_
  rwa [List.idxOf_append_of_mem (hfirsts b hb), List.idxOf_append_of_mem (hfirsts c hc)]

theorem firstOccurrences_eraseDups (all : List α) : FirstOccurrences all all.eraseDups := by
  refine ⟨fun _ ↦ List.mem_eraseDups, ?_⟩
  induction all using List.reverseRecOn with
  | nil => exact List.Pairwise.nil
  | append_singleton as a ih =>
    have hold := pairwise_idxOf_concat (fun b hb ↦ List.mem_eraseDups.mp hb) ih a
    by_cases ha : a ∈ as
    · rwa [eraseDups_concat_of_mem ha]
    · rw [eraseDups_concat_of_not_mem ha, List.pairwise_append]
      refine ⟨hold, List.pairwise_singleton _ _, fun b hb c hc ↦ ?_⟩
      -- The new member comes after all that is there.
      have hb := List.mem_eraseDups.mp hb
      rw [List.mem_singleton.mp hc, List.idxOf_append_of_mem hb, List.idxOf_append_of_notMem ha]
      exact Nat.lt_of_lt_of_le (List.idxOf_lt_length_of_mem hb) (Nat.le_add_right _ _)

theorem Container.firstOccurrences_images (cs : List Container) :
    FirstOccurrences (cs.map (·.image)) (Container.images cs) :=
  firstOccurrences_eraseDups _

end ConfidentialPolicy

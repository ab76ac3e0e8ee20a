import ConfidentialPolicy.Proofs.Json.Depth
import ConfidentialPolicy.Proofs.Template

namespace ConfidentialPolicy.Template

open Json

variable {f : Number → Number} {n : Nat} {ms group written : Members} {policy : String}

theorem readable_child (h : Readable f (n + 2) (.obj ms)) (key : String) :
    Readable f (n + 1) (.obj (child ms key)) := by
  unfold child
  split
  · next inner hinner => exact h.member _ (KeyMap.mem_of_get?_eq_some hinner)
  · exact readable_obj List.Pairwise.nil (List.forall_mem_nil _)

theorem readable_writePolicy (h : Readable f (n + 3) (.obj group))
    (hw : writePolicy group policy = .ok written) : Readable f (n + 3) (.obj written) := by
  have hproperties := readable_child h "properties"
  have hconfidential := readable_child hproperties "confidentialComputeProperties"
  rw [writePolicy_eq_ok hw]
  exact h.insert (hproperties.insert (hconfidential.insert (readable_str policy) _) _) _

theorem readable_inject {t u : Json} {position : Nat} (h : t.Readable f (n + 5))
    (hu : inject t position policy = .ok u) : u.Readable f (n + 5) := by
  obtain ⟨places, i, ms, rs, group, written, -, -, rfl, hrs, hgroup, hw, rfl⟩ := inject_eq_ok hu
  have hresources := h.member _ (KeyMap.mem_of_get?_eq_some hrs)
  have hbefore := hresources.item _ (List.mem_of_getElem? hgroup)
  exact h.insert (hresources.set (readable_writePolicy hbefore hw) i) _

/-- What becomes of a template is read as it was written, with each number as its text is read. -/
theorem parse?_pretty_inject {text : String} {t u : Json} {position : Nat}
    (ht : parse? text = some t) (hr : t.ReadsAs f) (hu : inject t position policy = .ok u) :
    parse? u.pretty = some (u.mapNumbers f) :=
  parse?_render (readable_inject ⟨canonical_of_parse? ht, hr, depth_le_of_parse? ht⟩ hu) .pretty

theorem parse?_pretty_inject_of_integral {text : String} {t u : Json} {position : Nat}
    (ht : parse? text = some t) (hi : t.Integral) (hu : inject t position policy = .ok u) :
    parse? u.pretty = some u := by
  rw [parse?_pretty_inject ht hi.readsAs hu, mapNumbers_id]

end ConfidentialPolicy.Template

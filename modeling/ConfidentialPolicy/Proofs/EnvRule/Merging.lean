import ConfidentialPolicy.EnvRule.Basic
import Mathlib.Data.List.Induction
import Mathlib.Data.List.TakeWhile

namespace ConfidentialPolicy.EnvRule

/-- The text before the first equals sign of a pattern, or the whole pattern if it has none. -/
def IsNameOf (name pattern : String) : Prop :=
  '=' ∉ name.toList ∧ (pattern = name ∨ ∃ value, pattern = name ++ "=" ++ value)

theorem name_eq_of_isNameOf {r : EnvRule} {name : String} (h : IsNameOf name r.pattern) :
    r.name = name := by
  obtain ⟨hname, hpattern⟩ := h
  have hall : ∀ c ∈ name.toList, (c != '=') = true := by
    intro c hc
    exact bne_iff_ne.mpr (ne_of_mem_of_not_mem hc hname)
  have htake : r.pattern.toList.takeWhile (· != '=') = name.toList := by
    obtain hp | ⟨value, hp⟩ := hpattern
    · rw [hp, List.takeWhile_eq_self_iff.mpr hall]
    · rw [hp, String.toList_append, String.toList_append, List.append_assoc,
        List.takeWhile_append_of_pos hall]
      simp
  rw [EnvRule.name, Text.splitFirst, htake, String.ofList_toList]

theorem isNameOf_name (r : EnvRule) : IsNameOf r.name r.pattern := by
  have hsplit := List.takeWhile_append_dropWhile (p := (· != '=')) (l := r.pattern.toList)
  have htoList : r.name.toList = r.pattern.toList.takeWhile (· != '=') := String.toList_ofList
  constructor
  · intro hmem
    rw [htoList] at hmem
    have hne := List.mem_takeWhile_imp hmem
    simp at hne
  · cases hrest : r.pattern.toList.dropWhile (· != '=') with
    | nil =>
      rw [hrest, List.append_nil, ← htoList] at hsplit
      exact .inl (String.toList_inj.mp hsplit.symm)
    | cons c value =>
      -- What stops the search can only be an equals sign.
      have hc : c = '=' := by
        have hhead := List.head?_dropWhile_not (· != '=') r.pattern.toList
        rw [hrest] at hhead
        simpa using hhead
      refine .inr ⟨String.ofList value, String.toList_inj.mp ?_⟩
      rw [hrest, hc, ← htoList] at hsplit
      simp [← hsplit]

theorem name_eq_iff {r : EnvRule} {name : String} : r.name = name ↔ IsNameOf name r.pattern := by
  constructor
  · intro h
    exact h ▸ isNameOf_name r
  · exact name_eq_of_isNameOf

def names (rules : List EnvRule) : List String := rules.map name

variable {rules extra : List EnvRule} {r : EnvRule} {name : String}

theorem mem_names_append_iff :
    name ∈ names (rules ++ extra) ↔ name ∈ names rules ∨ name ∈ names extra := by
  rw [names, List.map_append, List.mem_append]
  rfl

theorem isNamed_iff : isNamed rules name = true ↔ name ∈ names rules := by
  simp only [isNamed, names, List.any_eq_true, List.mem_map, beq_iff_eq]

/-- The rules whose names neither the given rules nor earlier ones among themselves have. -/
def unclaimed (rules extra : List EnvRule) : List EnvRule :=
  (extra.zipIdx.filter fun p ↦ p.1.name ∉ names (rules ++ extra.take p.2)).map (·.1)

theorem unclaimed_concat (rules extra : List EnvRule) (r : EnvRule) :
    unclaimed rules (extra ++ [r]) =
      unclaimed rules extra ++ if r.name ∈ names (rules ++ extra) then [] else [r] := by
  have hfilter : extra.zipIdx.filter (fun p ↦ p.1.name ∉ names (rules ++ (extra ++ [r]).take p.2)) =
      extra.zipIdx.filter fun p ↦ p.1.name ∉ names (rules ++ extra.take p.2) := by
    apply List.filter_congr
    intro p hp
    have hlt : p.2 < extra.length := by simpa using List.snd_lt_of_mem_zipIdx hp
    rw [List.take_append_of_le_length (by omega)]
  rw [unclaimed, List.zipIdx_append, List.filter_append, hfilter, List.map_append, unclaimed]
  congr 1
  by_cases hr : r.name ∈ names (rules ++ extra) <;> simp [hr]

theorem mem_of_mem_unclaimed (h : r ∈ unclaimed rules extra) :
    r ∈ extra ∧ r.name ∉ names rules := by
  obtain ⟨p, hp, rfl⟩ := List.mem_map.mp h
  obtain ⟨hmem, hname⟩ := List.mem_filter.mp hp
  refine ⟨List.fst_mem_of_mem_zipIdx hmem, ?_⟩
  intro hrules
  exact of_decide_eq_true hname (mem_names_append_iff.mpr (.inl hrules))

theorem nodup_names_unclaimed (rules extra : List EnvRule) :
    (names (unclaimed rules extra)).Nodup := by
  induction extra using List.reverseRecOn with
  | nil => exact List.nodup_nil
  | append_singleton extra r ih =>
    rw [unclaimed_concat]
    split
    · rwa [List.append_nil]
    · next hr =>
      have hnew : r.name ∉ names (unclaimed rules extra) := by
        intro hmem
        obtain ⟨q, hq, hname⟩ := List.mem_map.mp hmem
        have hextra : q.name ∈ names extra := List.mem_map_of_mem (mem_of_mem_unclaimed hq).1
        exact hr (mem_names_append_iff.mpr (.inr (hname ▸ hextra)))
      rw [names, List.map_append]
      exact ((List.perm_append_singleton _ _).symm.nodup (List.nodup_cons.mpr ⟨hnew, ih⟩))

theorem merge_append (rules extra more : List EnvRule) :
    merge rules (extra ++ more) = merge (merge rules extra) more :=
  List.foldl_append

theorem merge_concat (rules extra : List EnvRule) (r : EnvRule) :
    merge rules (extra ++ [r]) =
      merge rules extra ++ if r.name ∈ names (merge rules extra) then [] else [r] := by
  rw [merge_append, merge, List.foldl_cons, List.foldl_nil]
  by_cases hr : r.name ∈ names (merge rules extra)
  · rw [if_pos (isNamed_iff.mpr hr), if_pos hr, List.append_nil]
  · rw [if_neg (mt isNamed_iff.mp hr), if_neg hr]

theorem mem_names_merge_iff :
    name ∈ names (merge rules extra) ↔ name ∈ names rules ∨ name ∈ names extra := by
  induction extra using List.reverseRecOn generalizing name with
  | nil => simp [merge, names]
  | append_singleton extra r ih =>
    rw [merge_concat, mem_names_append_iff, mem_names_append_iff, ← or_assoc, ← ih]
    split
    · next hr =>
      constructor
      · rintro (h | h)
        · exact .inl h
        · exact absurd h List.not_mem_nil
      · rintro (h | h)
        · exact .inl h
        · rw [List.mem_singleton.mp h]
          exact .inl hr
    · rfl

theorem merge_eq_append (rules extra : List EnvRule) :
    merge rules extra = rules ++ unclaimed rules extra := by
  induction extra using List.reverseRecOn with
  | nil => exact (List.append_nil rules).symm
  | append_singleton extra r ih =>
    have hcond : r.name ∈ names (merge rules extra) ↔ r.name ∈ names (rules ++ extra) := by
      rw [mem_names_merge_iff, mem_names_append_iff]
    rw [merge_concat, unclaimed_concat, if_congr hcond rfl rfl, ih, List.append_assoc]

/-- Nothing is appended if all names are there. -/
theorem merge_eq_self (h : ∀ r ∈ extra, r.name ∈ names rules) : merge rules extra = rules := by
  have hnone : unclaimed rules extra = [] := by
    apply List.eq_nil_iff_forall_not_mem.mpr
    intro r hr
    obtain ⟨hmem, hname⟩ := mem_of_mem_unclaimed hr
    exact hname (h r hmem)
  rw [merge_eq_append, hnone, List.append_nil]

theorem merge_merge_self (rules extra : List EnvRule) :
    merge (merge rules extra) extra = merge rules extra := by
  apply merge_eq_self
  intro r hr
  exact mem_names_merge_iff.mpr (.inr (List.mem_map_of_mem hr))

theorem prefix_merge (rules extra : List EnvRule) : rules <+: merge rules extra :=
  ⟨unclaimed rules extra, (merge_eq_append rules extra).symm⟩

theorem merge_prefix_merge {more : List EnvRule} (h : extra <+: more) :
    merge rules extra <+: merge rules more := by
  obtain ⟨rest, rfl⟩ := h
  rw [merge_append]
  exact prefix_merge (merge rules extra) rest

/-- The first rule of a name wins, whoever brings it: the given rules stay, and behind them come in
order the rules that bring a new name. -/
theorem merge_firstWins (rules extra : List EnvRule) :
    (∀ (r : EnvRule) (name : String), r.name = name ↔ IsNameOf name r.pattern) ∧
    merge rules extra = rules ++ unclaimed rules extra ∧
    (∀ more, merge rules (extra ++ more) = merge (merge rules extra) more) ∧
    merge (merge rules extra) extra = merge rules extra ∧
    ∀ name, name ∈ names (merge rules extra) ↔ name ∈ names rules ∨ name ∈ names extra := by
  refine ⟨fun r name ↦ name_eq_iff, ?_, ?_, ?_, ?_⟩
  · exact merge_eq_append rules extra
  · exact merge_append rules extra
  · exact merge_merge_self rules extra
  · exact fun name ↦ mem_names_merge_iff

example : merge [⟨"TERM=vt100", .string, false⟩] [⟨"TERM=xterm", .string, false⟩,
    ⟨"HOSTNAME=.+", .re2, false⟩, ⟨"HOSTNAME=a=b", .string, true⟩, ⟨"TERM", .re2, true⟩] =
      [⟨"TERM=vt100", .string, false⟩, ⟨"HOSTNAME=.+", .re2, false⟩] := by
  decide +kernel

end ConfidentialPolicy.EnvRule

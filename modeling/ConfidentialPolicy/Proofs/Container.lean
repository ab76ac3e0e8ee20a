import ConfidentialPolicy.Document
import ConfidentialPolicy.Proofs.Checked
import ConfidentialPolicy.Proofs.Json.Value

namespace ConfidentialPolicy

open Json Checked

/-- Containers that are read from a description and edited. -/
inductive Container.Built : Container → Prop
  | ofSpec {raw : Json} {role : Role} {options : Options} {c : Container}
      (h : Container.ofSpec raw role options = .ok c) : Built c
  | edit {c : Container} (h : Built c) (e : ContainerEdit) : Built (c.edit e)

structure Document.Built (d : Document) : Prop where
  containers : ∀ c ∈ d.containers, c.Built
  pause : d.pause = none ∨ d.pause = some pauseContainer

structure Container.HasWords (c : Container) : Prop where
  signals : ∀ n ∈ c.signals, (Number.int n).IsWord
  processes : ∀ p ∈ c.execProcesses, ∀ n ∈ p.signals, (Number.int n).IsWord

theorem isWord_of_int64?_eq_some {v : Json} {n : Int} (h : v.int64? = some n) :
    (Number.int n).IsWord := by
  unfold int64? at h
  split at h
  · split at h
    · next hb =>
      cases h
      exact ⟨hb.1, Int.le_trans hb.2 (by decide)⟩
    · simp at h
  · simp at h

theorem Fields.listOf_view {f : Fields} {key path : String} {fault : Fault} {α : Type}
    {view : Json → Option α} {as : Option (List α)}
    (h : f.listOf key path fault view = .ok as) {a : α} (ha : a ∈ as.getD []) :
    ∃ v, view v = some a := by
  obtain ⟨found, -, h⟩ := bind_eq_ok_iff.mp h
  cases found with
  | none =>
    cases h
    simp at ha
  | some vs =>
    simp only at h
    split at h
    · next bs hbs =>
      cases h
      obtain ⟨v, -, hv⟩ := exists_of_mem_mapM_option hbs ha
      exact ⟨v, hv⟩
    · simp at h

theorem Fields.isWord_of_ints {f : Fields} {key path : String} {ns : Option (List Int)}
    (h : f.ints key path = .ok ns) : ∀ n ∈ ns.getD [], (Number.int n).IsWord := by
  intro n hn
  obtain ⟨v, hv⟩ := Fields.listOf_view h hn
  exact isWord_of_int64?_eq_some hv

theorem ExecProcess.isWord_of_ofJson {raw : Json} {stdio : Bool} {p : ExecProcess}
    (h : ExecProcess.ofJson raw stdio = .ok p) : ∀ n ∈ p.signals, (Number.int n).IsWord := by
  obtain ⟨fields, -, h⟩ := bind_eq_ok_iff.mp h
  obtain ⟨command, -, h⟩ := bind_eq_ok_iff.mp h
  cases command with
  | none => simp at h
  | some command =>
    obtain ⟨signals, hsignals, h⟩ := bind_eq_ok_iff.mp h
    obtain ⟨own, -, h⟩ := bind_eq_ok_iff.mp h
    cases h
    exact Fields.isWord_of_ints hsignals

theorem Container.isWord_of_execProcessesOf {fields : Fields} {stdio : Bool}
    {ps : List ExecProcess} (h : execProcessesOf fields stdio = .ok ps) :
    ∀ p ∈ ps, ∀ n ∈ p.signals, (Number.int n).IsWord := by
  intro p hp
  obtain ⟨items, -, h⟩ := bind_eq_ok_iff.mp h
  obtain ⟨raw, -, hraw⟩ := exists_of_mem_mapM h hp
  exact ExecProcess.isWord_of_ofJson hraw

theorem Container.hasWords_of_ofSpec {raw : Json} {role : Role} {options : Options} {c : Container}
    (h : ofSpec raw role options = .ok c) : c.HasWords := by
  obtain ⟨fields, -, h⟩ := bind_eq_ok_iff.mp h
  obtain ⟨image, -, h⟩ := bind_eq_ok_iff.mp h
  obtain ⟨id, -, h⟩ := bind_eq_ok_iff.mp h
  obtain ⟨envRules, -, h⟩ := bind_eq_ok_iff.mp h
  obtain ⟨command, -, h⟩ := bind_eq_ok_iff.mp h
  obtain ⟨workingDir, -, h⟩ := bind_eq_ok_iff.mp h
  obtain ⟨mounts, -, h⟩ := bind_eq_ok_iff.mp h
  obtain ⟨elevated, -, h⟩ := bind_eq_ok_iff.mp h
  obtain ⟨processes, hprocesses, h⟩ := bind_eq_ok_iff.mp h
  obtain ⟨signals, hsignals, h⟩ := bind_eq_ok_iff.mp h
  obtain ⟨stdio, -, h⟩ := bind_eq_ok_iff.mp h
  cases h
  refine ⟨Fields.isWord_of_ints hsignals, fun p hp ↦ ?_⟩
  rcases List.mem_append.mp hp with hp | hp
  · exact Container.isWord_of_execProcessesOf hprocesses p hp
  · have hshell : p = ExecProcess.shell := by
      split at hp
      · exact List.mem_singleton.mp hp
      · simp at hp
    simp [hshell, ExecProcess.shell]

theorem Container.HasWords.edit {c : Container} (h : c.HasWords) (e : ContainerEdit) :
    (c.edit e).HasWords := by
  cases e <;> exact ⟨h.signals, h.processes⟩

theorem Container.Built.hasWords {c : Container} (h : c.Built) : c.HasWords := by
  induction h with
  | ofSpec h => exact Container.hasWords_of_ofSpec h
  | edit _ e ih => exact ih.edit e

theorem EnvRule.plain_toJson (r : EnvRule) : Plain 1 r.toJson := by
  refine plain_object fun m hm ↦ ?_
  simp only [List.mem_cons, List.not_mem_nil, or_false] at hm
  rcases hm with rfl | rfl | rfl
  · exact plain_str _ _
  · exact plain_bool _ _
  · exact plain_str _ _

theorem Mount.plain_toJson (m : Mount) : Plain 2 m.toJson := by
  refine plain_object fun p hp ↦ ?_
  simp only [List.mem_cons, List.not_mem_nil, or_false] at hp
  rcases hp with rfl | rfl | rfl | rfl
  · exact plain_str _ _
  · exact plain_ofStrings _
  · exact plain_str _ _
  · exact plain_str _ _

theorem ExecProcess.plain_toJson {p : ExecProcess} (h : ∀ n ∈ p.signals, (Number.int n).IsWord) :
    Plain 2 p.toJson := by
  refine plain_object fun m hm ↦ ?_
  simp only [List.mem_cons, List.not_mem_nil, or_false] at hm
  rcases hm with rfl | rfl | rfl
  · exact plain_bool _ _
  · exact plain_ofStrings _
  · exact plain_ofInts h

theorem FragmentImport.plain_toJson (i : FragmentImport) : Plain 2 i.toJson := by
  refine plain_object fun m hm ↦ ?_
  simp only [List.mem_cons, List.not_mem_nil, or_false] at hm
  rcases hm with rfl | rfl | rfl | rfl
  · exact plain_str _ _
  · exact plain_ofStrings _
  · exact plain_str _ _
  · exact plain_str _ _

theorem plain_list {α : Type} {n : Nat} {f : α → Json} {as : List α} (h : ∀ a ∈ as, (f a).Plain n) :
    Plain (n + 1) (.arr (as.map f)) :=
  plain_arr fun v hv ↦ by
    obtain ⟨a, ha, rfl⟩ := List.mem_map.mp hv
    exact h a ha

theorem Container.sorted_members (c : Container) : KeyMap.Sorted c.members := by
  have hkeys : (c.members.map (·.1)).Pairwise (· < ·) := by
    simp only [members]
    split <;> simp only [List.map_append, List.map_cons, List.map_nil] <;> decide
  exact List.pairwise_map.mp hkeys

theorem Container.plain_members {c : Container} (h : c.HasWords) :
    ∀ m ∈ c.members, m.2.Plain 3 := by
  intro m hm
  simp only [members, List.mem_append, List.mem_cons, List.not_mem_nil, or_false] at hm
  rcases hm with ((rfl | rfl | rfl | rfl | rfl | rfl | rfl) | hmounts) | rfl | rfl
  · exact plain_bool _ _
  · exact plain_bool _ _
  · exact (plain_ofStrings _).mono (by decide)
  · exact (plain_list fun r _ ↦ r.plain_toJson).mono (by decide)
  · exact plain_list fun p hp ↦ ExecProcess.plain_toJson (h.processes p hp)
  · exact plain_str _ _
  · exact (plain_ofStrings _).mono (by decide)
  · split at hmounts
    · simp at hmounts
    · rw [List.mem_singleton.mp hmounts]
      exact plain_list fun m _ ↦ m.plain_toJson
  · exact (plain_ofInts h.signals).mono (by decide)
  · exact plain_str _ _

theorem Container.plain_record {c : Container} (h : c.HasWords) (omitId : Bool) :
    (c.record omitId).Plain 4 := by
  cases omitId with
  | false => exact plain_obj c.sorted_members (Container.plain_members h)
  | true =>
    rw [show c.record true = .obj (KeyMap.erase c.members "id") from rfl]
    exact plain_obj (c.sorted_members.erase _) fun m hm ↦
      Container.plain_members h m (KeyMap.mem_of_mem_erase hm)

theorem pauseContainer_hasWords : pauseContainer.HasWords :=
  ⟨by simp [pauseContainer], by simp [pauseContainer]⟩

theorem Document.Built.plain_records {d : Document} (h : d.Built) (omitId : Bool) :
    ∀ r ∈ d.records omitId, r.Plain 4 := by
  intro r hr
  rcases List.mem_append.mp hr with hr | hr
  · obtain ⟨c, hc, rfl⟩ := List.mem_map.mp hr
    exact Container.plain_record (h.containers c hc).hasWords omitId
  · obtain ⟨c, hc, rfl⟩ := List.mem_map.mp hr
    rcases h.pause with hp | hp
    · simp [hp] at hc
    · have hpause : c = pauseContainer := by simpa [hp] using hc
      rw [hpause]
      exact Container.plain_record pauseContainer_hasWords true

theorem Document.Built.plain_containersJson {d : Document} (h : d.Built) (omitId : Bool) :
    (d.containersJson omitId).Plain 5 :=
  plain_arr (h.plain_records omitId)

theorem FragmentImport.plain_listToJson (is : List FragmentImport) : Plain 3 (listToJson is) :=
  plain_list fun i _ ↦ i.plain_toJson

end ConfidentialPolicy

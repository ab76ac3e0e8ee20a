import ConfidentialPolicy.KeyMap

namespace ConfidentialPolicy.KeyMap

variable {α β : Type}

theorem Sorted.tail {p : String × α} {m : KeyMap α} (h : Sorted (p :: m)) : Sorted m :=
  (List.pairwise_cons.mp h).2

theorem Sorted.head_lt {p : String × α} {m : KeyMap α} (h : Sorted (p :: m)) :
    ∀ q ∈ m, p.1 < q.1 :=
  (List.pairwise_cons.mp h).1

theorem Sorted.filter {m : KeyMap α} (h : Sorted m) (f : String × α → Bool) :
    Sorted (m.filter f) :=
  List.Pairwise.filter f h

theorem Sorted.erase {m : KeyMap α} (h : Sorted m) (key : String) : Sorted (m.erase key) :=
  h.filter _

theorem Sorted.mapValues {m : KeyMap α} (h : Sorted m) (f : α → β) :
    Sorted (m.map fun p ↦ (p.1, f p.2)) :=
  List.pairwise_map.mpr h

theorem get?_mapValues (f : α → β) (m : KeyMap α) (key : String) :
    get? (m.map fun p ↦ (p.1, f p.2)) key = (get? m key).map f := by
  induction m with
  | nil => rfl
  | cons p m ih =>
    rw [List.map_cons, get?_cons, get?_cons, ih]
    split <;> rfl

theorem mem_of_mem_erase {m : KeyMap α} {key : String} {p : String × α} (h : p ∈ m.erase key) :
    p ∈ m :=
  (List.mem_filter.mp h).1

theorem mem_insert {key : String} {a : α} {m : KeyMap α} {p : String × α}
    (h : p ∈ insert key a m) : p = (key, a) ∨ p ∈ m := by
  induction m with
  | nil => exact .inl (List.mem_singleton.mp h)
  | cons q m ih =>
    obtain ⟨k, b⟩ := q
    simp only [insert] at h
    split at h
    · exact List.mem_cons.mp h
    · split at h
      · next hk =>
        rcases List.mem_cons.mp h with rfl | h
        · exact .inl (by rw [hk])
        · exact .inr (List.mem_cons_of_mem _ h)
      · rcases List.mem_cons.mp h with rfl | h
        · exact .inr List.mem_cons_self
        · exact (ih h).imp_right (List.mem_cons_of_mem _)

theorem get?_insert_self (key : String) (a : α) (m : KeyMap α) :
    get? (insert key a m) key = some a := by
  rw [get?_insert, if_pos rfl]

theorem insert_insert (key : String) (a b : α) (m : KeyMap α) :
    insert key b (insert key a m) = insert key b m := by
  have hself : ¬ key < key := String.lt_irrefl key
  induction m with
  | nil => simp only [insert, if_neg hself, if_pos]
  | cons p m ih =>
    obtain ⟨k, c⟩ := p
    by_cases hlt : key < k
    · simp only [insert, if_pos hlt, if_neg hself, if_pos]
    · by_cases heq : key = k
      · simp only [insert, if_neg hlt, if_pos heq]
      · simp only [insert, if_neg hlt, if_neg heq, ih]

theorem insert_ne_nil (key : String) (a : α) (m : KeyMap α) : insert key a m ≠ [] := by
  cases m with
  | nil => exact List.cons_ne_nil _ _
  | cons p m =>
    simp only [insert]
    split
    · exact List.cons_ne_nil _ _
    · split <;> exact List.cons_ne_nil _ _

theorem foldl_ne_nil {f : List β → α → List β} (hf : ∀ bs a, f bs a ≠ []) {as : List α}
    (h : as ≠ []) (bs : List β) : as.foldl f bs ≠ [] := by
  rw [← List.dropLast_concat_getLast h, List.foldl_append]
  exact hf _ _

theorem ofList_eq_nil_iff {ms : List (String × α)} : ofList ms = [] ↔ ms = [] := by
  have hinsert (m : KeyMap α) (p : String × α) : insert p.1 p.2 m ≠ [] := insert_ne_nil p.1 p.2 m
  constructor
  · exact fun h ↦ Decidable.byContradiction fun hms ↦ foldl_ne_nil hinsert hms [] h
  · rintro rfl
    rfl

theorem lt_of_not_lt_of_ne {k l : String} (h : ¬ k < l) (hne : k ≠ l) : l < k := by
  rcases String.le_total k l with hle | hle
  · exact absurd (String.le_antisymm hle (String.not_lt.mp h)) hne
  · exact String.not_le.mp fun hkl ↦ hne (String.le_antisymm hkl hle)

theorem sorted_insert {m : KeyMap α} (h : Sorted m) (key : String) (a : α) :
    Sorted (insert key a m) := by
  induction m with
  | nil => exact List.pairwise_singleton _ _
  | cons p m ih =>
    obtain ⟨k, b⟩ := p
    simp only [insert]
    split
    · next hk =>
      refine List.pairwise_cons.mpr ⟨fun q hq ↦ ?_, h⟩
      rcases List.mem_cons.mp hq with rfl | hq
      · exact hk
      · exact String.lt_trans hk (h.head_lt q hq)
    · next hk =>
      split
      · exact List.pairwise_cons.mpr ⟨h.head_lt, h.tail⟩
      · next hne =>
        refine List.pairwise_cons.mpr ⟨fun q hq ↦ ?_, ih h.tail⟩
        rcases mem_insert hq with rfl | hq
        · exact lt_of_not_lt_of_ne hk hne
        · exact h.head_lt q hq

theorem sorted_foldl_insert {m : KeyMap α} (h : Sorted m) (ms : List (String × α)) :
    Sorted (ms.foldl (fun m p ↦ insert p.1 p.2 m) m) := by
  induction ms generalizing m with
  | nil => exact h
  | cons p ms ih => exact ih (sorted_insert h p.1 p.2)

theorem sorted_ofList (ms : List (String × α)) : Sorted (ofList ms) :=
  sorted_foldl_insert List.Pairwise.nil ms

theorem mem_foldl_insert {ms : List (String × α)} {m : KeyMap α} {p : String × α}
    (h : p ∈ ms.foldl (fun m p ↦ insert p.1 p.2 m) m) : p ∈ m ∨ p ∈ ms := by
  induction ms generalizing m with
  | nil => exact .inl h
  | cons q ms ih =>
    rcases ih h with h | h
    · rcases mem_insert h with rfl | h
      · exact .inr List.mem_cons_self
      · exact .inl h
    · exact .inr (List.mem_cons_of_mem _ h)

theorem mem_of_mem_ofList {ms : List (String × α)} {p : String × α} (h : p ∈ ofList ms) :
    p ∈ ms :=
  (mem_foldl_insert h).resolve_left (by simp)

theorem insert_eq_append {m : KeyMap α} {key : String} (h : ∀ p ∈ m, p.1 < key) (a : α) :
    insert key a m = m ++ [(key, a)] := by
  induction m with
  | nil => rfl
  | cons p m ih =>
    obtain ⟨k, b⟩ := p
    have hk : k < key := h (k, b) List.mem_cons_self
    have hne : key ≠ k := fun he ↦ String.lt_irrefl k (by rwa [he] at hk)
    simp only [insert, if_neg (String.lt_asymm hk), if_neg hne, List.cons_append]
    rw [ih fun p hp ↦ h p (List.mem_cons_of_mem _ hp)]

theorem foldl_insert_of_sorted {m : KeyMap α} {ms : List (String × α)} (h : Sorted (m ++ ms)) :
    ms.foldl (fun m p ↦ insert p.1 p.2 m) m = m ++ ms := by
  induction ms generalizing m with
  | nil => simp
  | cons p ms ih =>
    have hlt : ∀ q ∈ m, q.1 < p.1 :=
      fun q hq ↦ (List.pairwise_append.mp h).2.2 q hq p List.mem_cons_self
    rw [List.foldl_cons, insert_eq_append hlt, ih (by simpa using h)]
    simp

theorem ofList_of_sorted {ms : List (String × α)} (h : Sorted ms) : ofList ms = ms :=
  foldl_insert_of_sorted (m := []) h

theorem mem_of_get?_eq_some {m : KeyMap α} {key : String} {a : α} (h : get? m key = some a) :
    (key, a) ∈ m := by
  induction m with
  | nil => simp at h
  | cons p m ih =>
    rw [get?_cons] at h
    split at h
    · next hk =>
      cases h
      exact hk ▸ List.mem_cons_self
    · exact List.mem_cons_of_mem _ (ih h)

theorem keys_cons (p : String × α) (m : KeyMap α) : keys (p :: m) = p.1 :: keys m := rfl

theorem keys_mapValues (f : α → β) (m : KeyMap α) :
    keys (m.map fun p ↦ (p.1, f p.2)) = keys m := by
  rw [keys, List.map_map]
  rfl

theorem Sorted.nodup_keys {m : KeyMap α} (h : Sorted m) : (keys m).Nodup :=
  List.pairwise_map.mpr (List.Pairwise.imp String.ne_of_lt h)

theorem get?_of_mem_of_nodup {m : KeyMap α} (hm : (keys m).Nodup) {p : String × α} (h : p ∈ m) :
    get? m p.1 = some p.2 := by
  induction m with
  | nil => simp at h
  | cons q m ih =>
    rw [keys_cons, List.nodup_cons] at hm
    rw [get?_cons]
    rcases List.mem_cons.mp h with rfl | h
    · rw [if_pos rfl]
    · have hne : p.1 ≠ q.1 := fun he ↦ hm.1 (he ▸ List.mem_map_of_mem h)
      rw [if_neg hne, ih hm.2 h]

theorem get?_eq_some_iff_of_nodup {m : KeyMap α} (hm : (keys m).Nodup) {key : String} {a : α} :
    get? m key = some a ↔ (key, a) ∈ m :=
  ⟨mem_of_get?_eq_some, get?_of_mem_of_nodup hm⟩

theorem get?_of_mem {m : KeyMap α} (hm : Sorted m) {p : String × α} (h : p ∈ m) :
    get? m p.1 = some p.2 :=
  get?_of_mem_of_nodup hm.nodup_keys h

theorem Sorted.nodup {m : KeyMap α} (h : Sorted m) : m.Nodup :=
  List.Pairwise.imp (fun hlt he ↦ String.ne_of_lt hlt (congrArg Prod.fst he)) h

/-- A sorted map holds nothing but its look-ups. -/
theorem eq_of_get?_eq {m n : KeyMap α} (hm : Sorted m) (hn : Sorted n)
    (h : ∀ key, get? m key = get? n key) : m = n := by
  have hmem (p : String × α) : p ∈ m ↔ p ∈ n := by
    constructor
    · exact fun hp ↦ mem_of_get?_eq_some ((h p.1).symm.trans (get?_of_mem hm hp))
    · exact fun hp ↦ mem_of_get?_eq_some ((h p.1).trans (get?_of_mem hn hp))
  have hperm : m.Perm n := (List.perm_ext_iff_of_nodup hm.nodup hn.nodup).mpr hmem
  exact hperm.eq_of_pairwise (fun p q _ _ hpq hqp ↦ absurd hqp (String.lt_asymm hpq)) hm hn

theorem mem_keys_iff {m : KeyMap α} {key : String} :
    key ∈ keys m ↔ (get? m key).isSome = true := by
  induction m with
  | nil => simp [keys]
  | cons p m ih =>
    rw [keys_cons, List.mem_cons, ih, get?_cons]
    by_cases h : key = p.1 <;> simp [h]

/-- A sorted map without values is given by its keys. -/
theorem eq_of_mem_keys_iff {m n : KeyMap Unit} (hm : Sorted m) (hn : Sorted n)
    (h : ∀ key, key ∈ keys m ↔ key ∈ keys n) : m = n := by
  apply eq_of_get?_eq hm hn
  intro key
  have hkey := h key
  rw [mem_keys_iff, mem_keys_iff] at hkey
  cases hleft : get? m key <;> cases hright : get? n key <;> simp [hleft, hright] at hkey ⊢

theorem get?_foldl_insert (m : KeyMap α) (ms : List (String × α)) (key : String) :
    get? (ms.foldl (fun m p ↦ insert p.1 p.2 m) m) key =
      ((ms.filter (·.1 = key)).getLast?.map (·.2)).or (get? m key) := by
  induction ms generalizing m with
  | nil => rfl
  | cons p ms ih =>
    rw [List.foldl_cons, ih, get?_insert, List.filter_cons]
    by_cases h : p.1 = key
    · rw [if_pos h.symm, if_pos (decide_eq_true h), List.getLast?_cons]
      cases (ms.filter (·.1 = key)).getLast? <;> rfl
    · rw [if_neg (Ne.symm h), if_neg (by simpa using h)]

/-- Of several members with one key the last one counts. -/
theorem get?_ofList (ms : List (String × α)) (key : String) :
    get? (ofList ms) key = (ms.filter (·.1 = key)).getLast?.map (·.2) := by
  rw [ofList, get?_foldl_insert, get?_nil, Option.or_none]

theorem mem_keys_ofList {ms : List (String × α)} {key : String} :
    key ∈ keys (ofList ms) ↔ key ∈ keys ms := by
  rw [mem_keys_iff, get?_ofList, Option.isSome_map, List.getLast?_isSome]
  simp [keys, List.filter_eq_nil_iff]

/-- A member stays if no other value is given to its key. -/
theorem get?_ofList_of_unique {ms : List (String × α)} {key : String} {a : α}
    (hmem : (key, a) ∈ ms) (hunique : ∀ b, (key, b) ∈ ms → b = a) :
    get? (ofList ms) key = some a := by
  have hsome : ((ms.filter (·.1 = key)).getLast?).isSome = true := by
    rw [List.getLast?_isSome]
    exact List.ne_nil_of_mem (List.mem_filter.mpr ⟨hmem, decide_eq_true rfl⟩)
  obtain ⟨⟨k, b⟩, hlast⟩ := Option.isSome_iff_exists.mp hsome
  obtain ⟨hb, hk⟩ := List.mem_filter.mp (List.mem_of_getLast? hlast)
  obtain rfl : k = key := of_decide_eq_true hk
  rw [get?_ofList, hlast, Option.map_some, hunique b hb]

/-- Where no key comes twice, all members stay. -/
theorem mem_ofList_of_nodup {ms : List (String × α)} (h : (keys ms).Nodup) {p : String × α} :
    p ∈ ofList ms ↔ p ∈ ms := by
  refine ⟨mem_of_mem_ofList, fun hp ↦ mem_of_get?_eq_some ?_⟩
  refine get?_ofList_of_unique hp fun b hb ↦ ?_
  have hget := get?_of_mem_of_nodup h hb
  rw [get?_of_mem_of_nodup h hp] at hget
  exact (Option.some.inj hget).symm

theorem get?_ofList_of_nodup {ms : List (String × α)} (h : (keys ms).Nodup) (key : String) :
    get? (ofList ms) key = get? ms key := by
  refine Option.ext fun a ↦ ?_
  rw [get?_eq_some_iff_of_nodup (sorted_ofList ms).nodup_keys, get?_eq_some_iff_of_nodup h,
    mem_ofList_of_nodup h]

/-- Where no key comes twice, the order of the members does not matter. -/
theorem ofList_perm {ms ns : List (String × α)} (h : ms.Perm ns) (hms : (keys ms).Nodup) :
    ofList ms = ofList ns := by
  have hns : (keys ns).Nodup := (h.map Prod.fst).nodup_iff.mp hms
  refine eq_of_get?_eq (sorted_ofList ms) (sorted_ofList ns) fun key ↦ Option.ext fun a ↦ ?_
  rw [get?_ofList_of_nodup hms, get?_ofList_of_nodup hns, get?_eq_some_iff_of_nodup hms,
    get?_eq_some_iff_of_nodup hns, h.mem_iff]

end ConfidentialPolicy.KeyMap

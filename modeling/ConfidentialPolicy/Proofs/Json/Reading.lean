import ConfidentialPolicy.Json.Reader
import ConfidentialPolicy.Proofs.Json.Lexing

namespace ConfidentialPolicy.Json

mutual

def written : Json → Written
  | .null => .null
  | .bool b => .bool b
  | .num n => .num (some n)
  | .str s => .str (some s)
  | .arr vs => .arr (writtenItems vs)
  | .obj ms => .obj (writtenMembers ms)
termination_by structural v => v

def writtenItems : List Json → List Written
  | [] => []
  | v :: vs => written v :: writtenItems vs
termination_by structural vs => vs

def writtenMembers : List (String × Json) → List (Option String × Written)
  | [] => []
  | (k, v) :: ms => (some k, written v) :: writtenMembers ms
termination_by structural ms => ms

end

theorem itemValues?_written {vs : List Json} (h : ∀ v ∈ vs, v.written.value? = some v) :
    Written.itemValues? (writtenItems vs) = some vs := by
  induction vs with
  | nil => rfl
  | cons v vs ih =>
    simp only [writtenItems, Written.itemValues?, h v List.mem_cons_self,
      ih fun w hw ↦ h w (List.mem_cons_of_mem _ hw)]

theorem memberValues?_written {ms : List (String × Json)}
    (h : ∀ m ∈ ms, m.2.written.value? = some m.2) :
    Written.memberValues? (writtenMembers ms) = some ms := by
  induction ms with
  | nil => rfl
  | cons m ms ih =>
    simp only [writtenMembers, Written.memberValues?, h m List.mem_cons_self,
      ih fun w hw ↦ h w (List.mem_cons_of_mem _ hw)]

theorem value?_written (v : Json) : v.written.value? = some v := by
  induction v with
  | null | bool | num | str => rfl
  | arr vs ih => simp only [written, Written.value?, itemValues?_written ih, Option.map_some]
  | obj ms ih => simp only [written, Written.value?, memberValues?_written ih, Option.map_some]

namespace Builder

theorem run_cons (b : Builder) (t : Token) (ts : List Token) :
    b.run (t :: ts) = (b.step t).bind (·.run ts) := by
  simp only [run, List.foldlM_cons]
  rfl

/-- The builder takes the tokens of a value where a value may start. -/
def Builds (v : Json) : Prop :=
  ∀ (frames : List Frame) (ts : List Token),
    run ⟨frames, .value⟩ (tokens v ++ ts) = (deliver v.written frames).run ts

theorem run_itemTokens {vs : List Json} (hvs : ∀ v ∈ vs, Builds v) (frames : List Frame)
    (done : List Written) (ts : List Token) :
    run ⟨frames, .itemEnd done⟩ (itemTokens vs ++ ts) =
      run ⟨frames, .itemEnd ((writtenItems vs).reverse ++ done)⟩ ts := by
  induction vs generalizing done with
  | nil => rfl
  | cons v vs ih =>
    have hcomma : step ⟨frames, .itemEnd done⟩ .comma = some ⟨.item done :: frames, .value⟩ := rfl
    simp only [itemTokens, List.cons_append, List.append_assoc, run_cons, hcomma, Option.bind_some]
    rw [hvs v List.mem_cons_self, deliver, ih fun w hw ↦ hvs w (List.mem_cons_of_mem _ hw)]
    simp [writtenItems]

theorem run_memberTokens {ms : List (String × Json)} (hms : ∀ m ∈ ms, Builds m.2)
    (frames : List Frame) (done : List (Option String × Written)) (ts : List Token) :
    run ⟨frames, .memberEnd done⟩ (memberTokens ms ++ ts) =
      run ⟨frames, .memberEnd ((writtenMembers ms).reverse ++ done)⟩ ts := by
  induction ms generalizing done with
  | nil => rfl
  | cons m ms ih =>
    obtain ⟨k, v⟩ := m
    have hkey : run ⟨frames, .memberEnd done⟩ (memberTokens ((k, v) :: ms) ++ ts) =
        run ⟨.member done (some k) :: frames, .value⟩ (tokens v ++ (memberTokens ms ++ ts)) := by
      simp only [memberTokens, List.cons_append, List.append_assoc]
      rfl
    have hv : Builds v := hms (k, v) List.mem_cons_self
    rw [hkey, hv, deliver, ih fun w hw ↦ hms w (List.mem_cons_of_mem _ hw)]
    simp [writtenMembers]

theorem exists_tokens_eq_cons (v : Json) : ∃ t ts, tokens v = t :: ts ∧ t ≠ .closeList := by
  cases v with
  | null | bool | num | str => exact ⟨_, _, rfl, nofun⟩
  | arr vs => cases vs <;> exact ⟨_, _, rfl, nofun⟩
  | obj ms => cases ms <;> exact ⟨_, _, rfl, nofun⟩

/-- The first item of a list starts like any value. -/
theorem run_firstItem (v : Json) (frames : List Frame) (ts : List Token) :
    run ⟨frames, .itemOrClose⟩ (tokens v ++ ts) =
      run ⟨.item [] :: frames, .value⟩ (tokens v ++ ts) := by
  obtain ⟨t, us, hv, ht⟩ := exists_tokens_eq_cons v
  have hs : step ⟨frames, .itemOrClose⟩ t = step ⟨.item [] :: frames, .value⟩ t := by
    cases t with
    | closeList => exact absurd rfl ht
    | _ => rfl
  rw [hv, List.cons_append, run_cons, run_cons, hs]

theorem builds (v : Json) : Builds v := by
  -- The frames are arbitrary, since the parts of a value are built inside of the frame it opens.
  induction v with
  | null | bool | num | str => exact fun _ _ ↦ rfl
  | arr vs ih =>
    intro frames ts
    cases vs with
    | nil => rfl
    | cons v vs =>
      have hopen : run ⟨frames, .value⟩ (tokens (.arr (v :: vs)) ++ ts) =
          run ⟨frames, .itemOrClose⟩ (tokens v ++ (itemTokens vs ++ (.closeList :: ts))) := by
        simp only [tokens, List.cons_append, List.append_assoc, List.nil_append]
        rfl
      rw [hopen, run_firstItem, ih v List.mem_cons_self, deliver,
        run_itemTokens fun w hw ↦ ih w (List.mem_cons_of_mem _ hw)]
      simp [run_cons, step, written, writtenItems]
  | obj ms ih =>
    intro frames ts
    cases ms with
    | nil => rfl
    | cons m ms =>
      obtain ⟨k, v⟩ := m
      have hopen : run ⟨frames, .value⟩ (tokens (.obj ((k, v) :: ms)) ++ ts) =
          run ⟨.member [] (some k) :: frames, .value⟩
            (tokens v ++ (memberTokens ms ++ (.closeObject :: ts))) := by
        simp only [tokens, List.cons_append, List.append_assoc, List.nil_append]
        rfl
      have hv : Builds v := ih (k, v) List.mem_cons_self
      rw [hopen, hv, deliver, run_memberTokens fun w hw ↦ ih w (List.mem_cons_of_mem _ hw)]
      simp [run_cons, step, written, writtenMembers]

end Builder

theorem build?_tokens (v : Json) : build? (tokens v) = some v.written := by
  have h := Builder.builds v [] []
  rw [List.append_nil] at h
  rw [build?, Builder.start, h]
  rfl

def NestsAsDeep (v : Json) : Prop :=
  ∀ n most, n ≤ most → (tokens v).foldl openAfter (n, most) = (n, max most (n + v.depth))

theorem foldl_openAfter_items {vs : List Json} (hvs : ∀ v ∈ vs, NestsAsDeep v) {n most : Nat}
    (h : n ≤ most) :
    (itemTokens vs).foldl openAfter (n, most) = (n, max most (n + itemsDepth vs)) := by
  induction vs generalizing most with
  | nil => simp [itemTokens, itemsDepth, h]
  | cons v vs ih =>
    have hv := hvs v List.mem_cons_self n most h
    simp only [itemTokens, List.foldl_cons, openAfter, List.foldl_append, hv]
    rw [ih (fun w hw ↦ hvs w (List.mem_cons_of_mem _ hw)) (by omega), itemsDepth]
    congr 1
    omega

theorem foldl_openAfter_members {ms : List (String × Json)} (hms : ∀ m ∈ ms, NestsAsDeep m.2)
    {n most : Nat} (h : n ≤ most) :
    (memberTokens ms).foldl openAfter (n, most) = (n, max most (n + membersDepth ms)) := by
  induction ms generalizing most with
  | nil => simp [memberTokens, membersDepth, h]
  | cons m ms ih =>
    have hm := hms m List.mem_cons_self n most h
    simp only [memberTokens, List.foldl_cons, openAfter, List.foldl_append, hm]
    rw [ih (fun w hw ↦ hms w (List.mem_cons_of_mem _ hw)) (by omega), membersDepth]
    congr 1
    omega

theorem nestsAsDeep (v : Json) : NestsAsDeep v := by
  induction v with
  | null | bool | num | str =>
    intro n most h
    simp [tokens, openAfter, depth, h]
  | arr vs ih =>
    intro n most h
    cases vs with
    | nil => simp [tokens, openAfter, depth, itemsDepth]
    | cons v vs =>
      have hv := ih v List.mem_cons_self (n + 1) (max most (n + 1)) (by omega)
      -- Behind the first item as many lists are open as before it.
      have hle : n + 1 ≤ max (max most (n + 1)) (n + 1 + v.depth) := by omega
      have hvs := foldl_openAfter_items (fun w hw ↦ ih w (List.mem_cons_of_mem _ hw)) hle
      simp only [tokens, List.foldl_cons, openAfter, List.foldl_append, hv, hvs, List.foldl_nil,
        depth, itemsDepth]
      congr 1
      omega
  | obj ms ih =>
    intro n most h
    cases ms with
    | nil => simp [tokens, openAfter, depth, membersDepth]
    | cons m ms =>
      have hm := ih m List.mem_cons_self (n + 1) (max most (n + 1)) (by omega)
      have hle : n + 1 ≤ max (max most (n + 1)) (n + 1 + m.2.depth) := by omega
      have hms := foldl_openAfter_members (fun w hw ↦ ih w (List.mem_cons_of_mem _ hw)) hle
      simp only [tokens, List.foldl_cons, openAfter, List.foldl_append, hm, hms, List.foldl_nil,
        depth, membersDepth]
      congr 1
      omega

theorem nesting_tokens (v : Json) : nesting (tokens v) = v.depth := by
  simp [nesting, nestsAsDeep v 0 0 le_rfl]

variable {f : Number → Number} {n : Nat}

/-- Printed text reads as the value that was printed, with its members sorted and each number as
its own text is read. -/
theorem parse?_write {v : Json} (hr : v.ReadsAs f) (hd : v.depth ≤ maxDepth) (style : Style)
    (depth : Nat) :
    parse? (String.ofList (write style depth v)) = some (v.mapNumbers f).canonicalize := by
  simp [parse?, tokens?_write hr, nesting_tokens, depth_mapNumbers, hd, build?_tokens,
    value?_written]

theorem parse?_write_of_integral {v : Json} (hi : v.Integral) (hd : v.depth ≤ maxDepth)
    (style : Style) (depth : Nat) :
    parse? (String.ofList (write style depth v)) = some v.canonicalize := by
  rw [parse?_write hi.readsAs hd, mapNumbers_id]

theorem canonical_of_parse? {s : String} {v : Json} (h : parse? s = some v) : v.Canonical := by
  obtain ⟨ts, -, h⟩ := Option.bind_eq_some_iff.mp h
  split at h
  · obtain ⟨w, -, h⟩ := Option.bind_eq_some_iff.mp h
    obtain ⟨u, -, rfl⟩ := Option.map_eq_some_iff.mp h
    exact canonical_canonicalize u
  · cases h

/-- A value in canonical form, at most `n` levels deep, whose numbers are read as `f` says. -/
structure Readable (f : Number → Number) (n : Nat) (v : Json) : Prop where
  canonical : v.Canonical
  readsAs : v.ReadsAs f
  depth_le : v.depth ≤ n

theorem parse?_render {v : Json} (h : v.Readable f maxDepth) (style : Style) :
    parse? (v.render style) = some (v.mapNumbers f) := by
  rw [render, text, canonicalize_eq_self h.canonical, parse?_write h.readsAs h.depth_le,
    canonicalize_eq_self (canonical_mapNumbers h.canonical)]

variable {ms : Members} {vs : List Json}

theorem readable_str (s : String) : Readable f n (.str s) :=
  ⟨canonical_str s, readsAs_str s, Nat.zero_le n⟩

theorem readable_arr (h : ∀ v ∈ vs, v.Readable f n) : Readable f (n + 1) (.arr vs) :=
  ⟨canonical_arr_iff.mpr fun v hv ↦ (h v hv).canonical,
    readsAs_arr_iff.mpr fun v hv ↦ (h v hv).readsAs, depth_arr_le fun v hv ↦ (h v hv).depth_le⟩

theorem readable_obj (hs : KeyMap.Sorted ms) (h : ∀ m ∈ ms, m.2.Readable f n) :
    Readable f (n + 1) (.obj ms) :=
  ⟨canonical_obj_iff.mpr ⟨hs, fun m hm ↦ (h m hm).canonical⟩,
    readsAs_obj_iff.mpr fun m hm ↦ (h m hm).readsAs, depth_obj_le fun m hm ↦ (h m hm).depth_le⟩

theorem Readable.item (h : Readable f (n + 1) (.arr vs)) : ∀ v ∈ vs, v.Readable f n := fun v hv ↦
  ⟨canonical_arr_iff.mp h.canonical v hv, readsAs_arr_iff.mp h.readsAs v hv,
    (depth_le_itemsDepth hv).trans (Nat.le_of_succ_le_succ h.depth_le)⟩

theorem Readable.member (h : Readable f (n + 1) (.obj ms)) : ∀ m ∈ ms, m.2.Readable f n :=
  fun m hm ↦ ⟨(canonical_obj_iff.mp h.canonical).2 m hm, readsAs_obj_iff.mp h.readsAs m hm,
    (depth_le_membersDepth hm).trans (Nat.le_of_succ_le_succ h.depth_le)⟩

theorem Readable.insert (h : Readable f (n + 1) (.obj ms)) {v : Json} (hv : v.Readable f n)
    (key : String) : Readable f (n + 1) (.obj (KeyMap.insert key v ms)) := by
  refine readable_obj (KeyMap.sorted_insert (canonical_obj_iff.mp h.canonical).1 key v) ?_
  intro m hm
  rcases KeyMap.mem_insert hm with rfl | hm
  · exact hv
  · exact h.member m hm

theorem Readable.set (h : Readable f (n + 1) (.arr vs)) {v : Json} (hv : v.Readable f n)
    (i : Nat) : Readable f (n + 1) (.arr (vs.set i v)) := by
  refine readable_arr fun w hw ↦ ?_
  rcases List.mem_or_eq_of_mem_set hw with hw | rfl
  · exact h.item w hw
  · exact hv

end ConfidentialPolicy.Json

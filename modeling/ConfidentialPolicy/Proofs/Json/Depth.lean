import ConfidentialPolicy.Proofs.Json.Reading

namespace ConfidentialPolicy

open Json

inductive Written.Shallow : Nat → Written → Prop
  | null (n : Nat) : Shallow n .null
  | bool (n : Nat) (b : Bool) : Shallow n (.bool b)
  | num (n : Nat) (x : Option Number) : Shallow n (.num x)
  | str (n : Nat) (s : Option String) : Shallow n (.str s)
  | arr {n : Nat} {vs : List Written} (h : ∀ v ∈ vs, Shallow n v) : Shallow (n + 1) (.arr vs)
  | obj {n : Nat} {ms : List (Option String × Written)} (h : ∀ m ∈ ms, Shallow n m.2) :
    Shallow (n + 1) (.obj ms)

namespace Written

theorem Shallow.mono {n m : Nat} {w : Written} (h : w.Shallow n) (hnm : n ≤ m) : w.Shallow m := by
  induction h generalizing m with
  | null => exact .null m
  | bool n b => exact .bool m b
  | num n x => exact .num m x
  | str n s => exact .str m s
  | arr _ ih =>
    obtain ⟨k, rfl⟩ := Nat.exists_eq_add_of_le' hnm
    exact .arr fun v hv ↦ ih v hv (Nat.le_add_left _ _)
  | obj _ ih =>
    obtain ⟨k, rfl⟩ := Nat.exists_eq_add_of_le' hnm
    exact .obj fun m hm ↦ ih m hm (Nat.le_add_left _ _)

theorem exists_of_mem_itemValues? {ws : List Written} {vs : List Json}
    (h : itemValues? ws = some vs) : ∀ v ∈ vs, ∃ w ∈ ws, w.value? = some v := by
  induction ws generalizing vs with
  | nil =>
    cases h
    simp
  | cons w ws ih =>
    simp only [itemValues?] at h
    split at h
    · next v vs hv hvs =>
      cases h
      refine List.forall_mem_cons.mpr ⟨⟨w, List.mem_cons_self, hv⟩, fun u hu ↦ ?_⟩
      obtain ⟨x, hx, hxu⟩ := ih hvs u hu
      exact ⟨x, List.mem_cons_of_mem _ hx, hxu⟩
    · cases h

theorem exists_of_mem_memberValues? {ws : List (Option String × Written)}
    {ms : List (String × Json)} (h : memberValues? ws = some ms) :
    ∀ m ∈ ms, ∃ w ∈ ws, w.2.value? = some m.2 := by
  induction ws generalizing ms with
  | nil =>
    cases h
    simp
  | cons w ws ih =>
    simp only [memberValues?] at h
    split at h
    · next k v ms hk hv hms =>
      cases h
      refine List.forall_mem_cons.mpr ⟨⟨w, List.mem_cons_self, hv⟩, fun m hm ↦ ?_⟩
      obtain ⟨x, hx, hxm⟩ := ih hms m hm
      exact ⟨x, List.mem_cons_of_mem _ hx, hxm⟩
    · cases h

theorem Shallow.depth_le {n : Nat} {w : Written} (h : w.Shallow n) {v : Json}
    (hv : w.value? = some v) : v.depth ≤ n := by
  induction h generalizing v with
  | null n =>
    cases hv
    exact Nat.zero_le n
  | bool n b =>
    cases hv
    exact Nat.zero_le n
  | num n x =>
    obtain ⟨y, -, rfl⟩ := Option.map_eq_some_iff.mp hv
    exact Nat.zero_le n
  | str n s =>
    obtain ⟨t, -, rfl⟩ := Option.map_eq_some_iff.mp hv
    exact Nat.zero_le n
  | arr _ ih =>
    obtain ⟨vs, hvs, rfl⟩ := Option.map_eq_some_iff.mp hv
    refine depth_arr_le fun u hu ↦ ?_
    obtain ⟨w, hw, hwu⟩ := exists_of_mem_itemValues? hvs u hu
    exact ih w hw hwu
  | obj _ ih =>
    obtain ⟨ms, hms, rfl⟩ := Option.map_eq_some_iff.mp hv
    refine depth_obj_le fun m hm ↦ ?_
    obtain ⟨w, hw, hwm⟩ := exists_of_mem_memberValues? hms m hm
    exact ih w hw hwm

end Written

namespace Json

def Frame.done : Frame → List Written
  | .item vs => vs
  | .member ms _ => ms.map (·.2)

def Expect.done : Expect → List Written
  | .itemEnd vs => vs
  | .key ms | .colon ms _ | .memberEnd ms => ms.map (·.2)
  | .nothing v => [v]
  | .value | .itemOrClose | .keyOrClose => []

def FramesWithin (most : Nat) : List Frame → Prop
  | [] => True
  | f :: fs => (∀ w ∈ f.done, w.Shallow (most - (fs.length + 1))) ∧ FramesWithin most fs

theorem FramesWithin.mono {m n : Nat} (hmn : m ≤ n) {fs : List Frame} (h : FramesWithin m fs) :
    FramesWithin n fs := by
  induction fs with
  | nil => trivial
  | cons f fs ih => exact ⟨fun w hw ↦ (h.1 w hw).mono (by omega), ih h.2⟩

namespace Builder

def opened (b : Builder) : Nat :=
  b.frames.length + match b.expect with
    | .value | .nothing _ => 0
    | _ => 1

/-- The builder agrees with a count of what is open and of the most that has been open. -/
structure Within (b : Builder) (n : Nat × Nat) : Prop where
  opened : n.1 = b.opened
  le : b.opened ≤ n.2
  frames : FramesWithin n.2 b.frames
  done : ∀ w ∈ b.expect.done, w.Shallow (n.2 - b.opened)

variable {frames : List Frame} {most : Nat}

theorem within_deliver (hle : frames.length ≤ most) (hf : FramesWithin most frames) {v : Written}
    (hv : v.Shallow (most - frames.length)) : (deliver v frames).Within (frames.length, most) := by
  cases frames with
  | nil => exact ⟨rfl, Nat.zero_le _, hf, List.forall_mem_singleton.mpr hv⟩
  | cons f fs =>
    cases f with
    | item vs => exact ⟨rfl, hle, hf.2, List.forall_mem_cons.mpr ⟨hv, hf.1⟩⟩
    | member ms key => exact ⟨rfl, hle, hf.2, List.forall_mem_cons.mpr ⟨hv, hf.1⟩⟩

theorem within_beginValue (hle : frames.length ≤ most) (hf : FramesWithin most frames) {t : Token}
    {b : Builder} (h : beginValue frames t = some b) :
    b.Within (openAfter (frames.length, most) t) := by
  have hopen : FramesWithin (max most (frames.length + 1)) frames := hf.mono (le_max_left _ _)
  cases t with
  | openList =>
    cases h
    exact ⟨rfl, le_max_right _ _, hopen, List.forall_mem_nil _⟩
  | openObject =>
    cases h
    exact ⟨rfl, le_max_right _ _, hopen, List.forall_mem_nil _⟩
  | null =>
    cases h
    exact within_deliver hle hf (.null _)
  | bool b =>
    cases h
    exact within_deliver hle hf (.bool _ b)
  | num n =>
    cases h
    exact within_deliver hle hf (.num _ n)
  | str s =>
    cases h
    exact within_deliver hle hf (.str _ s)
  | closeList | closeObject | comma | colon => cases h

/-- A list or object that is closed is one level deeper than its parts. -/
theorem within_close {n : Nat × Nat} {done : List Written} {v : Written}
    (hn : n.1 = frames.length + 1) (hle : frames.length + 1 ≤ n.2) (hf : FramesWithin n.2 frames)
    (hdone : ∀ w ∈ done, w.Shallow (n.2 - (frames.length + 1)))
    (hv : ∀ k, (∀ w ∈ done, w.Shallow k) → v.Shallow (k + 1)) :
    (deliver v frames).Within (n.1 - 1, n.2) := by
  have hlevel : n.2 - (frames.length + 1) + 1 = n.2 - frames.length := by omega
  rw [hn, Nat.add_sub_cancel]
  exact within_deliver (by omega) hf (hlevel ▸ hv _ hdone)

theorem Within.step {b b' : Builder} {n : Nat × Nat} {t : Token} (hb : b.Within n)
    (h : b.step t = some b') : b'.Within (openAfter n t) := by
  obtain ⟨frames, expect⟩ := b
  obtain ⟨k, most⟩ := n
  obtain ⟨rfl, le, hf, done⟩ := hb
  -- What was finished in the innermost list or object stays there while a further part is read.
  have hframe (f : Frame) (hd : ∀ w ∈ f.done, w.Shallow (most - (frames.length + 1))) :
      FramesWithin most (f :: frames) := ⟨hd, hf⟩
  cases expect with
  | value => exact within_beginValue le hf h
  | itemOrClose =>
    by_cases ht : t = .closeList
    · subst ht
      cases h
      exact within_close rfl le hf done fun _ h ↦ .arr h
    · have hbegin : beginValue (.item [] :: frames) t = some b' := by
        cases t with
        | closeList => exact absurd rfl ht
        | _ => exact h
      exact within_beginValue le (hframe (.item []) done) hbegin
  | itemEnd vs =>
    cases t with
    | comma =>
      cases h
      exact ⟨rfl, le, hframe (.item vs) done, List.forall_mem_nil _⟩
    | closeList =>
      cases h
      exact within_close rfl le hf done fun _ h ↦ .arr fun v hv ↦ h v (List.mem_reverse.mp hv)
    | _ => cases h
  | keyOrClose =>
    cases t with
    | closeObject =>
      cases h
      exact within_close rfl le hf done fun _ _ ↦ .obj (List.forall_mem_nil _)
    | str key =>
      cases h
      exact ⟨rfl, le, hf, done⟩
    | _ => cases h
  | key ms =>
    cases t with
    | str key =>
      cases h
      exact ⟨rfl, le, hf, done⟩
    | _ => cases h
  | colon ms key =>
    cases t with
    | colon =>
      cases h
      exact ⟨rfl, le, hframe (.member ms key) done, List.forall_mem_nil _⟩
    | _ => cases h
  | memberEnd ms =>
    cases t with
    | comma =>
      cases h
      exact ⟨rfl, le, hf, done⟩
    | closeObject =>
      cases h
      exact within_close rfl le hf done fun _ h ↦
        .obj fun m hm ↦ h m.2 (List.mem_map_of_mem (List.mem_reverse.mp hm))
    | _ => cases h
  | nothing v => cases h

theorem Within.run {b b' : Builder} {n : Nat × Nat} {ts : List Token} (hb : b.Within n)
    (h : b.run ts = some b') : b'.Within (ts.foldl openAfter n) := by
  induction ts generalizing b n with
  | nil =>
    cases h
    exact hb
  | cons t ts ih =>
    rw [run_cons] at h
    obtain ⟨c, hc, h⟩ := Option.bind_eq_some_iff.mp h
    exact ih (hb.step hc) h

end Builder

theorem shallow_of_build? {ts : List Token} {w : Written} (h : build? ts = some w) :
    w.Shallow (nesting ts) := by
  obtain ⟨b, hb, h⟩ := Option.bind_eq_some_iff.mp h
  have hstart : Builder.start.Within (0, 0) := ⟨rfl, le_rfl, trivial, List.forall_mem_nil _⟩
  have hdone := (hstart.run hb).done
  unfold Builder.finish? at h
  split at h
  · next v hv =>
    cases h
    rw [hv] at hdone
    exact (hdone w List.mem_cons_self).mono (Nat.sub_le _ _)
  · cases h

theorem depth_le_of_parse? {s : String} {v : Json} (h : parse? s = some v) :
    v.depth ≤ maxDepth := by
  obtain ⟨ts, -, h⟩ := Option.bind_eq_some_iff.mp h
  split at h
  · next hnesting =>
    obtain ⟨w, hw, h⟩ := Option.bind_eq_some_iff.mp h
    obtain ⟨u, hu, rfl⟩ := Option.map_eq_some_iff.mp h
    exact (depth_canonicalize_le u).trans
      (((shallow_of_build? hw).depth_le hu).trans hnesting)
  · cases h

end Json

end ConfidentialPolicy

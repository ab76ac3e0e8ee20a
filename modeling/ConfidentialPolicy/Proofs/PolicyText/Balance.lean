import ConfidentialPolicy.PolicyText.Brackets
import ConfidentialPolicy.Proofs.Text.Search
import Mathlib.Data.List.Induction

namespace ConfidentialPolicy.PolicyText

variable {s t u code : List Char} {c : Char} {n : Nesting} {d : Nat}

def EndsEscaped (s : List Char) : Prop := (s.reverse.takeWhile (· = '\\')).length % 2 = 1

/-- The beginning of a string literal that is not over: each quote in it follows an unpaired
backslash. -/
def StaysOpen (u : List Char) : Prop := ∀ v w, u = v ++ '"' :: w → EndsEscaped v

/-- The text ends outside of string literals, and `code` is what it holds outside of them. -/
inductive Outside : List Char → List Char → Prop
  | nil : Outside [] []
  | code {s code : List Char} {c : Char} (h : Outside s code) (hc : c ≠ '"') :
      Outside (s ++ [c]) (code ++ [c])
  | literal {s code u : List Char} (h : Outside s code) (hu : StaysOpen u)
      (hend : ¬ EndsEscaped u) : Outside (s ++ '"' :: (u ++ ['"'])) code

/-- What a text holds outside of string literals, the last of which may still be open. -/
def CodeOf (s code : List Char) : Prop :=
  Outside s code ∨ ∃ before u, s = before ++ '"' :: u ∧ Outside before code ∧ StaysOpen u

/-- So many more brackets are opened than closed outside of string literals. -/
def IsBalance (s : List Char) (n : Int) : Prop :=
  ∃ code, CodeOf s code ∧ (code.count '[' : Int) - code.count ']' = n

theorem endsEscaped_concat_iff : EndsEscaped (s ++ [c]) ↔ c = '\\' ∧ ¬ EndsEscaped s := by
  unfold EndsEscaped
  rw [List.reverse_append, List.reverse_singleton, List.singleton_append]
  by_cases hc : c = '\\'
  · rw [List.takeWhile_cons_of_pos (by simpa using hc), List.length_cons, and_iff_right hc]
    omega
  · rw [List.takeWhile_cons_of_neg (by simpa using hc)]
    simp [hc]

theorem not_endsEscaped_nil : ¬ EndsEscaped [] := by
  simp [EndsEscaped]

theorem staysOpen_nil : StaysOpen [] := by
  intro v w h
  simp at h

theorem StaysOpen.concat (hu : StaysOpen u) (hc : c = '"' → EndsEscaped u) :
    StaysOpen (u ++ [c]) := by
  intro v w h
  rcases List.eq_nil_or_concat w with rfl | ⟨w, b, rfl⟩
  · obtain ⟨rfl, hquote⟩ := List.append_inj' h rfl
    exact hc (List.cons.inj hquote).1
  · rw [List.concat_eq_append, ← List.cons_append, ← List.append_assoc] at h
    exact hu v w (List.append_inj' h rfl).1

theorem StaysOpen.of_concat (h : StaysOpen (u ++ [c])) :
    StaysOpen u ∧ (c = '"' → EndsEscaped u) := by
  constructor
  · intro v w hu
    exact h v (w ++ [c]) (by rw [hu, List.append_assoc, List.cons_append])
  · rintro rfl
    exact h u [] rfl

theorem run_append (n : Nesting) (s t : List Char) : n.run (s ++ t) = (n.run s).run t :=
  List.foldl_append

theorem run_concat (n : Nesting) (s : List Char) (c : Char) :
    n.run (s ++ [c]) = (n.run s).step c :=
  run_append n s [c]

theorem step_code_of_plain (hopen : c ≠ '[') (hclose : c ≠ ']') (hquote : c ≠ '"') :
    Nesting.step (.code d) c = .code d := by
  simp [Nesting.step, hopen, hclose, hquote]

theorem step_literal_of_plain (hb : c ≠ '\\') (hquote : c ≠ '"') :
    Nesting.step (.literal d) c = .literal d := by
  simp [Nesting.step, hb, hquote]

theorem count_concat_self (s : List Char) (c : Char) : (s ++ [c]).count c = s.count c + 1 := by
  rw [List.count_append, List.count_singleton_self]

theorem count_concat_of_ne {b : Char} (h : c ≠ b) (s : List Char) :
    (s ++ [c]).count b = s.count b := by
  rw [List.count_append, List.count_cons_of_ne h, List.count_nil, Nat.add_zero]

/-- What the scanner does within a literal. -/
theorem run_literal (hu : StaysOpen u) (d : Nat) :
    (EndsEscaped u → (Nesting.literal d).run u = .escaped d) ∧
    (¬ EndsEscaped u → (Nesting.literal d).run u = .literal d) := by
  induction u using List.reverseRecOn with
  | nil => exact ⟨fun h ↦ absurd h not_endsEscaped_nil, fun _ ↦ rfl⟩
  | append_singleton u c ih =>
    obtain ⟨hu, hquote⟩ := hu.of_concat
    obtain ⟨hescaped, hplain⟩ := ih hu
    rw [endsEscaped_concat_iff, run_concat]
    by_cases he : EndsEscaped u
    · rw [hescaped he]
      exact ⟨fun h ↦ absurd he h.2, fun _ ↦ rfl⟩
    · have hc : c ≠ '"' := fun hc ↦ he (hquote hc)
      rw [hplain he]
      constructor
      · rintro ⟨rfl, -⟩
        rfl
      · intro h
        exact step_literal_of_plain (fun hb ↦ h ⟨hb, he⟩) hc

theorem depth_run_literal (hu : StaysOpen u) (d : Nat) :
    ((Nesting.literal d).run u).depth = d := by
  obtain ⟨hescaped, hplain⟩ := run_literal hu d
  by_cases he : EndsEscaped u
  · rw [hescaped he, Nesting.depth]
  · rw [hplain he, Nesting.depth]

/-- Where enough brackets are open at the start, the depth follows the count. -/
theorem run_outside (h : Outside s code) (hd : code.count ']' ≤ d) :
    ∃ e, (Nesting.code d).run s = .code e ∧ e + code.count ']' = d + code.count '[' := by
  induction h with
  | nil => exact ⟨d, rfl, rfl⟩
  | @code s code c h hc ih =>
    by_cases hopen : c = '['
    · subst hopen
      rw [count_concat_of_ne (by decide)] at hd
      obtain ⟨e, hrun, he⟩ := ih hd
      refine ⟨e + 1, by rw [run_concat, hrun]; rfl, ?_⟩
      rw [count_concat_self, count_concat_of_ne (by decide)]
      omega
    · by_cases hclose : c = ']'
      · subst hclose
        -- By the bound a bracket is still open here, so that the depth really goes down.
        rw [count_concat_self] at hd
        obtain ⟨e, hrun, he⟩ := ih (by omega)
        refine ⟨e - 1, by rw [run_concat, hrun]; rfl, ?_⟩
        rw [count_concat_self, count_concat_of_ne (by decide)]
        omega
      · rw [count_concat_of_ne hclose] at hd ⊢
        obtain ⟨e, hrun, he⟩ := ih hd
        refine ⟨e, ?_, ?_⟩
        · rw [run_concat, hrun, step_code_of_plain hopen hclose hc]
        · rw [count_concat_of_ne hopen]
          exact he
  | @literal s code u h hu hend ih =>
    obtain ⟨e, hrun, he⟩ := ih hd
    refine ⟨e, ?_, he⟩
    rw [run_append, hrun, Nesting.run_cons, run_append]
    have hstart : Nesting.step (.code e) '"' = .literal e := rfl
    rw [hstart, (run_literal hu e).2 hend]
    rfl

theorem depth_run_of_codeOf (h : CodeOf s code) (hd : code.count ']' ≤ d) :
    ((Nesting.code d).run s).depth + code.count ']' = d + code.count '[' := by
  rcases h with h | ⟨before, u, rfl, h, hu⟩
  · obtain ⟨e, hrun, he⟩ := run_outside h hd
    rw [hrun]
    exact he
  · obtain ⟨e, hrun, he⟩ := run_outside h hd
    have hstart : Nesting.step (.code e) '"' = .literal e := rfl
    rw [run_append, hrun, Nesting.run_cons, hstart, depth_run_literal hu]
    exact he

/-- A text has one balance: the scanner computes it from any depth that is large enough. -/
theorem IsBalance.unique {m n : Int} (hm : IsBalance s m) (hn : IsBalance s n) : m = n := by
  obtain ⟨code, hcode, rfl⟩ := hm
  obtain ⟨code', hcode', rfl⟩ := hn
  have h := depth_run_of_codeOf (d := code.count ']' + code'.count ']') hcode (by omega)
  have h' := depth_run_of_codeOf (d := code.count ']' + code'.count ']') hcode' (by omega)
  omega

/-- What the scanner knows about the text behind it. -/
inductive Reads : List Char → Nesting → Prop
  | code {s code : List Char} {d : Nat} (h : Outside s code)
      (hd : code.count '[' = code.count ']' + d) : Reads s (.code d)
  | literal {s code u : List Char} {d : Nat} (h : Outside s code) (hu : StaysOpen u)
      (hend : ¬ EndsEscaped u) (hpos : 0 < d) (hd : code.count '[' = code.count ']' + d) :
      Reads (s ++ '"' :: u) (.literal d)
  | escaped {s code u : List Char} {d : Nat} (h : Outside s code) (hu : StaysOpen u)
      (hend : EndsEscaped u) (hpos : 0 < d) (hd : code.count '[' = code.count ']' + d) :
      Reads (s ++ '"' :: u) (.escaped d)

theorem Reads.isBalance (h : Reads s n) : IsBalance s n.depth := by
  cases h with
  | @code _ code d h hd => exact ⟨code, .inl h, by rw [Nesting.depth]; omega⟩
  | @literal s code u d h hu _ _ hd =>
    exact ⟨code, .inr ⟨s, u, rfl, h, hu⟩, by rw [Nesting.depth]; omega⟩
  | @escaped s code u d h hu _ _ hd =>
    exact ⟨code, .inr ⟨s, u, rfl, h, hu⟩, by rw [Nesting.depth]; omega⟩

theorem Reads.isClosed_iff (h : Reads s n) : n.isClosed = true ↔ n.depth = 0 := by
  cases h with
  | @code _ _ d => cases d <;> simp [Nesting.isClosed, Nesting.depth]
  | literal _ _ _ hpos => simp [Nesting.isClosed, Nesting.depth, Nat.pos_iff_ne_zero.mp hpos]
  | escaped _ _ _ hpos => simp [Nesting.isClosed, Nesting.depth, Nat.pos_iff_ne_zero.mp hpos]

/-- One more character is read while a bracket is open, or it opens the first one. -/
theorem Reads.step (h : Reads s n) (hc : n.depth ≠ 0 ∨ c = '[') : Reads (s ++ [c]) (n.step c) := by
  cases h with
  | @code _ code d h hd =>
    rw [Nesting.depth] at hc
    by_cases hopen : c = '['
    · subst hopen
      refine .code (h.code (by decide)) ?_
      rw [count_concat_self, count_concat_of_ne (by decide)]
      omega
    · have hpos : d ≠ 0 := hc.resolve_right hopen
      -- From here on a bracket is open: this is what keeps the depth equal to the count.
      by_cases hclose : c = ']'
      · subst hclose
        refine .code (h.code (by decide)) ?_
        rw [count_concat_self, count_concat_of_ne (by decide)]
        omega
      · by_cases hquote : c = '"'
        · subst hquote
          exact .literal h staysOpen_nil not_endsEscaped_nil (Nat.pos_of_ne_zero hpos) hd
        · rw [step_code_of_plain hopen hclose hquote]
          refine .code (h.code hquote) ?_
          rw [count_concat_of_ne hopen, count_concat_of_ne hclose]
          exact hd
  | @literal s code u d h hu hend hpos hd =>
    rw [List.append_assoc, List.cons_append]
    by_cases hb : c = '\\'
    · subst hb
      have hopen : StaysOpen (u ++ ['\\']) := hu.concat (by simp)
      exact .escaped h hopen (endsEscaped_concat_iff.mpr ⟨rfl, hend⟩) hpos hd
    · by_cases hquote : c = '"'
      · subst hquote
        exact .code (h.literal hu hend) hd
      · rw [step_literal_of_plain hb hquote]
        have hopen : StaysOpen (u ++ [c]) := hu.concat fun h ↦ absurd h hquote
        exact .literal h hopen (fun h ↦ hb (endsEscaped_concat_iff.mp h).1) hpos hd
  | @escaped s code u d h hu hend hpos hd =>
    rw [List.append_assoc, List.cons_append]
    have hplain : ¬ EndsEscaped (u ++ [c]) := fun h ↦ (endsEscaped_concat_iff.mp h).2 hend
    exact .literal h (hu.concat fun _ ↦ hend) hplain hpos hd

def OpenBefore (n : Nesting) (s : List Char) : Prop :=
  ∀ t, t <+: s → t ≠ [] → t ≠ s → (n.run t).isClosed = false

theorem reads_run (hhead : ∀ c, s.head? = some c → c = '[') (hopen : OpenBefore (.code 0) s) :
    Reads s ((Nesting.code 0).run s) := by
  induction s using List.reverseRecOn with
  | nil => exact .code .nil rfl
  | append_singleton s c ih =>
    have hreads : Reads s ((Nesting.code 0).run s) := by
      refine ih (fun b hb ↦ hhead b ?_) fun t ht hne _ ↦ ?_
      · rw [List.head?_append, hb, Option.some_or]
      · refine hopen t (ht.trans (List.prefix_append s [c])) hne ?_
        rintro rfl
        have hle := ht.length_le
        rw [List.length_append, List.length_singleton] at hle
        omega
    rw [run_concat]
    refine hreads.step ?_
    by_cases hs : s = []
    · subst hs
      exact .inr (hhead c rfl)
    · have hlast := hopen s (List.prefix_append s [c]) hs (by simp)
      refine .inl fun hdepth ↦ ?_
      rw [hreads.isClosed_iff.mpr hdepth] at hlast
      cases hlast

structure FirstClosed (n : Nesting) (s : List Char) : Prop where
  closed : (n.run s).isClosed = true
  ne_nil : s ≠ []
  openBefore : OpenBefore n s

def NeverClosed (n : Nesting) (s : List Char) : Prop :=
  ∀ t, t <+: s → t ≠ [] → (n.run t).isClosed = false

theorem OpenBefore.cons (hc : (n.step c).isClosed = false) (h : OpenBefore (n.step c) s) :
    OpenBefore n (c :: s) := by
  intro t ht hne hall
  obtain rfl | ⟨r, rfl, hr⟩ := List.prefix_cons_iff.mp ht
  · exact absurd rfl hne
  · by_cases hnil : r = []
    · rw [hnil]
      exact hc
    · exact h r hr hnil fun heq ↦ hall (by rw [heq])

theorem NeverClosed.cons (hc : (n.step c).isClosed = false) (h : NeverClosed (n.step c) s) :
    NeverClosed n (c :: s) := by
  intro t ht hne
  obtain rfl | ⟨r, rfl, hr⟩ := List.prefix_cons_iff.mp ht
  · exact absurd rfl hne
  · by_cases hnil : r = []
    · rw [hnil]
      exact hc
    · exact h r hr hnil

theorem NeverClosed.openBefore (h : NeverClosed n s) (ht : t <+: s) : OpenBefore n t :=
  fun r hr hne _ ↦ h r (hr.trans ht) hne

theorem FirstClosed.openBefore_of_initial (h : FirstClosed n s) (ht : t <+: s) :
    OpenBefore n t := by
  intro r hr hne hproper
  refine h.openBefore r (hr.trans ht) hne ?_
  rintro rfl
  exact hproper (hr.eq_of_length_le ht.length_le)

theorem closingLength?_cases (n : Nesting) (read : Nat) (s : List Char) :
    (∃ t, t <+: s ∧ FirstClosed n t ∧ closingLength? n read s = some (read + t.length)) ∨
    (closingLength? n read s = none ∧ NeverClosed n s) := by
  induction s generalizing n read with
  | nil => exact .inr ⟨rfl, fun t ht hne ↦ absurd (List.prefix_nil.mp ht) hne⟩
  | cons c s ih =>
    cases hc : (n.step c).isClosed with
    | true =>
      refine .inl ⟨[c], List.prefix_append [c] s, ⟨hc, List.cons_ne_nil c [], ?_⟩, ?_⟩
      · intro t ht hne hproper
        obtain rfl | ⟨r, rfl, hr⟩ := List.prefix_cons_iff.mp ht
        · exact absurd rfl hne
        · exact absurd (by rw [List.prefix_nil.mp hr]) hproper
      · rw [closingLength?, if_pos hc, List.length_singleton]
    | false =>
      rw [closingLength?, if_neg (by rw [hc]; exact Bool.false_ne_true)]
      rcases ih (n.step c) (read + 1) with ⟨t, ht, hfirst, hlength⟩ | ⟨hnone, hnever⟩
      · refine .inl ⟨c :: t, ?_, ⟨hfirst.closed, List.cons_ne_nil c t, ?_⟩, ?_⟩
        · exact (List.prefix_cons_inj c).mpr ht
        · exact hfirst.openBefore.cons hc
        · rw [hlength, List.length_cons]
          congr 1
          omega
      · exact .inr ⟨hnone, hnever.cons hc⟩

/-- A text starts with an opening bracket, and `s` is the shortest part of it, from its start on and
not empty, outside of whose string literals as many brackets are closed as opened. -/
structure ShortestBalanced (body s : List Char) : Prop where
  opens : body.head? = some '['
  initial : s <+: body
  ne_nil : s ≠ []
  balanced : IsBalance s 0
  shortest : ∀ t, t <+: body → t ≠ [] → IsBalance t 0 → s.length ≤ t.length

variable {body : List Char}

theorem reads_run_of_initial (hhead : body.head? = some '[') (hs : s <+: body)
    (hopen : OpenBefore (.code 0) s) : Reads s ((Nesting.code 0).run s) := by
  refine reads_run (fun c hc ↦ ?_) hopen
  obtain ⟨rest, rfl⟩ := hs
  rw [List.head?_append, hc, Option.some_or] at hhead
  exact Option.some.inj hhead

theorem ShortestBalanced.of_firstClosed (hhead : body.head? = some '[') (hs : s <+: body)
    (h : FirstClosed (.code 0) s) : ShortestBalanced body s := by
  have hreads := reads_run_of_initial hhead hs h.openBefore
  have hzero := hreads.isBalance
  rw [hreads.isClosed_iff.mp h.closed] at hzero
  refine ⟨hhead, hs, h.ne_nil, hzero, fun t ht hne hbalance ↦ ?_⟩
  by_contra hlt
  have hpart : t <+: s := List.prefix_of_prefix_length_le ht hs (by omega)
  -- A shorter part would be read as closed, too.
  have htreads := reads_run_of_initial hhead ht (h.openBefore_of_initial hpart)
  have hdepth := htreads.isBalance.unique hbalance
  have hclosed := htreads.isClosed_iff.mpr (by omega)
  rw [h.openBefore t hpart hne fun heq ↦ hlt (heq ▸ Nat.le_refl _)] at hclosed
  cases hclosed

/-- What the scanner makes of a text that starts with an opening bracket. -/
theorem closingLength?_eq_some_iff {k : Nat} (hhead : body.head? = some '[') :
    closingLength? (.code 0) 0 body = some k ↔
      ∃ s, ShortestBalanced body s ∧ k = s.length := by
  rcases closingLength?_cases (.code 0) 0 body with ⟨s, hs, hfirst, hlength⟩ | ⟨hnone, hnever⟩
  · have hshortest := ShortestBalanced.of_firstClosed hhead hs hfirst
    rw [hlength, Nat.zero_add, Option.some.injEq]
    constructor
    · rintro rfl
      exact ⟨s, hshortest, rfl⟩
    · rintro ⟨t, ht, rfl⟩
      exact Nat.le_antisymm (hshortest.shortest t ht.initial ht.ne_nil ht.balanced)
        (ht.shortest s hs hfirst.ne_nil hshortest.balanced)
  · rw [hnone]
    constructor
    · intro h
      cases h
    · rintro ⟨s, hs, -⟩
      have hreads := reads_run_of_initial hhead hs.initial (hnever.openBefore hs.initial)
      have hdepth := hreads.isBalance.unique hs.balanced
      have hclosed := hreads.isClosed_iff.mpr (by omega)
      rw [hnever s hs.initial hs.ne_nil] at hclosed
      cases hclosed

theorem openBefore_of_shortest (hs : s <+: body)
    (h : ∀ t, t <+: body → FirstClosed (.code 0) t → s <+: t) : OpenBefore (.code 0) s := by
  rcases closingLength?_cases (.code 0) 0 body with ⟨t, ht, hfirst, -⟩ | ⟨-, hnever⟩
  · exact hfirst.openBefore_of_initial (h t ht hfirst)
  · exact hnever.openBefore hs

def ListAfter (marker text s : List Char) : Prop :=
  ∃ rest, Text.FollowsFirst marker text rest ∧ ShortestBalanced (Text.trimStart rest) s

def IsScanned (marker text s : List Char) : Prop :=
  ∃ rest, Text.FollowsFirst marker text rest ∧ (Text.trimStart rest).head? = some '[' ∧
    s <+: Text.trimStart rest ∧ ∀ found, ListAfter marker text found → s <+: found

theorem balancedList_of_opens {marker : String} {rest : List Char}
    (h : Text.trimStart rest = '[' :: body) :
    balancedList marker rest = match closingLength? (.code 0) 0 ('[' :: body) with
      | some k => .ok (('[' :: body).take k)
      | none => .error (.unbalanced (String.ofList (Text.trim marker.toList))) := by
  simp only [balancedList, h, if_pos]
  rfl

theorem balancedList_eq_ok_iff {marker : String} {rest : List Char} :
    balancedList marker rest = .ok s ↔ ShortestBalanced (Text.trimStart rest) s := by
  by_cases hopens : (Text.trimStart rest).head? = some '['
  · obtain ⟨body, hbody⟩ := List.head?_eq_some_iff.mp hopens
    have hlength {k : Nat} : closingLength? (.code 0) 0 ('[' :: body) = some k ↔
        ∃ s, ShortestBalanced ('[' :: body) s ∧ k = s.length := closingLength?_eq_some_iff rfl
    rw [balancedList_of_opens hbody, hbody]
    constructor
    · intro h
      split at h
      · next k hk =>
        obtain ⟨t, ht, rfl⟩ := hlength.mp hk
        rw [← List.prefix_iff_eq_take.mp ht.initial] at h
        exact Except.ok.inj h ▸ ht
      · cases h
    · intro hs
      rw [hlength.mpr ⟨s, hs, rfl⟩]
      exact congrArg Except.ok (List.prefix_iff_eq_take.mp hs.initial).symm
  · refine ⟨fun h ↦ ?_, fun h ↦ absurd h.opens hopens⟩
    unfold balancedList at h
    split at h
    · cases h
    · next c body hbody =>
      have hc : c ≠ '[' := by
        rintro rfl
        exact hopens (by rw [hbody, List.head?_cons])
      rw [if_neg hc] at h
      cases h

theorem kind_of_balancedList {marker : String} {rest : List Char} {e : PolicyError}
    (h : balancedList marker rest = .error e) : e.kind = .scan := by
  unfold balancedList at h
  split at h
  · cases h
    rfl
  · split at h
    · split at h
      · cases h
      · cases h
        rfl
    · cases h
      rfl

theorem extractList_eq_ok_iff {text : List Char} {marker : String} :
    extractList text marker = .ok s ↔ ListAfter marker.toList text s := by
  unfold extractList ListAfter
  simp only [← Text.afterFirst?_eq_some_iff]
  cases Text.afterFirst? marker.toList text with
  | some rest => simp only [balancedList_eq_ok_iff, Option.some.injEq, exists_eq_left']
  | none =>
    constructor
    · intro h
      cases h
    · rintro ⟨rest, hrest, -⟩
      cases hrest

theorem kind_of_extractList {text : List Char} {marker : String} {e : PolicyError}
    (h : extractList text marker = .error e) : e.kind = .scan := by
  unfold extractList at h
  split at h
  · cases h
    rfl
  · exact kind_of_balancedList h

/-- Extraction gives the shortest balanced list after the first occurrence of the marker, and a
scan error where there is none. The depth of the scanner is the balance of what it has read, so it
never closes a bracket that was not opened. -/
theorem extractList_exact (text : List Char) (marker : String) :
    (∀ s, extractList text marker = .ok s ↔ ListAfter marker.toList text s) ∧
    ((¬ ∃ s, ListAfter marker.toList text s) →
      ∃ e, extractList text marker = .error e ∧ e.kind = .scan) ∧
    ∀ s, IsScanned marker.toList text s →
      ∀ n, IsBalance s n ↔ n = ((Nesting.code 0).run s).depth := by
  refine ⟨fun s ↦ extractList_eq_ok_iff, fun hnone ↦ ?_, ?_⟩
  · cases h : extractList text marker with
    | ok s => exact absurd ⟨s, extractList_eq_ok_iff.mp h⟩ hnone
    | error e => exact ⟨e, rfl, kind_of_extractList h⟩
  · rintro s ⟨rest, hrest, hopens, hs, hfound⟩ n
    have hopen : OpenBefore (.code 0) s := openBefore_of_shortest hs fun t ht hfirst ↦
      hfound t ⟨rest, hrest, .of_firstClosed hopens ht hfirst⟩
    have hbalance := (reads_run_of_initial hopens hs hopen).isBalance
    constructor
    · exact fun hn ↦ hn.unique hbalance
    · rintro rfl
      exact hbalance

/-- Neither a bracket in a literal nor an escaped quote there ends the list. -/
example : extractList "xs := \n[\"]\\\"[\", [\"\\\\\"]], 1]".toList "xs := " =
    .ok "[\"]\\\"[\", [\"\\\\\"]]".toList := by
  decide +kernel

end ConfidentialPolicy.PolicyText

import ConfidentialPolicy.Error
import Mathlib.Data.List.Forall2

namespace ConfidentialPolicy.Checked

variable {α β : Type}

theorem ok_bind {ε : Type} (a : α) (f : α → Except ε β) : (.ok a >>= f) = f a := rfl

theorem bind_eq_ok_iff {ε : Type} {x : Except ε α} {f : α → Except ε β} {b : β} :
    (x >>= f) = .ok b ↔ ∃ a, x = .ok a ∧ f a = .ok b := by
  cases x with
  | error e => exact ⟨nofun, nofun⟩
  | ok a =>
    constructor
    · exact fun h ↦ ⟨a, rfl, h⟩
    · rintro ⟨a, ⟨⟩, h⟩
      exact h

theorem bind_eq_error_iff {ε : Type} {x : Except ε α} {f : α → Except ε β} {e : ε} :
    (x >>= f) = .error e ↔ x = .error e ∨ ∃ a, x = .ok a ∧ f a = .error e := by
  cases x with
  | error e' =>
    constructor
    · rintro ⟨⟩
      exact .inl rfl
    · rintro (⟨⟨⟩⟩ | ⟨a, ⟨⟩, -⟩)
      rfl
  | ok a =>
    constructor
    · exact fun h ↦ .inr ⟨a, rfl, h⟩
    · rintro (h | ⟨a, ⟨⟩, h⟩)
      · cases h
      · exact h

theorem mapError_eq_ok_iff {ε δ : Type} {f : ε → δ} {x : Except ε α} {a : α} :
    x.mapError f = .ok a ↔ x = .ok a := by
  cases x with
  | error e => exact ⟨nofun, nofun⟩
  | ok b => exact ⟨fun h ↦ congrArg Except.ok (Except.ok.inj h), fun h ↦ congrArg _ h⟩

instance decidableExistsOk {ε : Type} (x : Except ε α) (p : α → Prop) [DecidablePred p] :
    Decidable (∃ a, x = .ok a ∧ p a) :=
  match x with
  | .ok a => decidable_of_iff (p a) ⟨fun h ↦ ⟨a, rfl, h⟩, fun ⟨_, h, hp⟩ ↦ Except.ok.inj h ▸ hp⟩
  | .error _ => isFalse nofun

theorem mapM_pure_eq {m : Type → Type} [Monad m] [LawfulMonad m] (as : List α) :
    as.mapM (m := m) (fun a ↦ pure a) = pure as := by
  rw [List.mapM_pure (f := fun a ↦ a), List.map_id']

theorem mapM_eq_ok_iff {f : α → Checked β} {as : List α} {bs : List β} :
    as.mapM f = .ok bs ↔ List.Forall₂ (fun a b ↦ f a = .ok b) as bs := by
  induction as generalizing bs with
  | nil =>
    rw [List.mapM_nil, List.forall₂_nil_left_iff]
    exact ⟨fun h ↦ by cases h; rfl, fun h ↦ by rw [h]; rfl⟩
  | cons a as ih =>
    rw [List.mapM_cons, List.forall₂_cons_left_iff]
    constructor
    · intro h
      obtain ⟨b, hb, h⟩ := bind_eq_ok_iff.mp h
      obtain ⟨cs, hcs, h⟩ := bind_eq_ok_iff.mp h
      cases h
      exact ⟨b, cs, hb, ih.mp hcs, rfl⟩
    · rintro ⟨b, cs, hb, hcs, rfl⟩
      rw [hb, ih.mpr hcs]
      rfl

/-- A step that keeps a property commutes with leaving out what lacks it. -/
theorem mapM_filter_eq_ok {f : α → Checked β} {as : List α} {bs : List β}
    (h : as.mapM f = .ok bs) {p : α → Bool} {q : β → Bool}
    (hpq : ∀ a b, f a = .ok b → q b = p a) : (as.filter p).mapM f = .ok (bs.filter q) := by
  have hall := mapM_eq_ok_iff.mp h
  rw [mapM_eq_ok_iff]
  clear h
  induction hall with
  | nil => exact .nil
  | @cons a b as bs hab _ ih =>
    rw [List.filter_cons, List.filter_cons, hpq a b hab]
    split
    · exact .cons hab ih
    · exact ih

theorem exists_of_mem_mapM {f : α → Checked β} {as : List α} {bs : List β}
    (h : as.mapM f = .ok bs) {b : β} (hb : b ∈ bs) : ∃ a ∈ as, f a = .ok b := by
  have hall := mapM_eq_ok_iff.mp h
  clear h
  induction hall with
  | nil => simp at hb
  | @cons a c as bs hac _ ih =>
    rcases List.mem_cons.mp hb with rfl | hb
    · exact ⟨a, List.mem_cons_self, hac⟩
    · obtain ⟨a', ha', h⟩ := ih hb
      exact ⟨a', List.mem_cons_of_mem _ ha', h⟩

theorem exists_of_mem_mapM_option {f : α → Option β} {as : List α} {bs : List β}
    (h : as.mapM f = some bs) {b : β} (hb : b ∈ bs) : ∃ a ∈ as, f a = some b := by
  induction as generalizing bs with
  | nil =>
    rw [List.mapM_nil] at h
    cases h
    simp at hb
  | cons a as ih =>
    rw [List.mapM_cons] at h
    obtain ⟨c, hc, h⟩ := Option.bind_eq_some_iff.mp h
    obtain ⟨cs, hcs, h⟩ := Option.bind_eq_some_iff.mp h
    cases h
    rcases List.mem_cons.mp hb with rfl | hb
    · exact ⟨a, List.mem_cons_self, hc⟩
    · obtain ⟨a', ha', h⟩ := ih hcs hb
      exact ⟨a', List.mem_cons_of_mem _ ha', h⟩

/-- Steps that can be undone give the list back. -/
theorem eq_map_of_mapM_option {f : α → Option β} {g : β → α} (hf : ∀ a b, f a = some b → a = g b)
    {as : List α} {bs : List β} (h : as.mapM f = some bs) : as = bs.map g := by
  induction as generalizing bs with
  | nil =>
    rw [List.mapM_nil] at h
    cases h
    rfl
  | cons a as ih =>
    rw [List.mapM_cons] at h
    obtain ⟨b, hb, h⟩ := Option.bind_eq_some_iff.mp h
    obtain ⟨bs, hbs, h⟩ := Option.bind_eq_some_iff.mp h
    cases h
    rw [hf a b hb, ih hbs, List.map_cons]

theorem exists_mapM_option_iff {f : α → Option β} {as : List α} :
    (∃ bs, as.mapM f = some bs) ↔ ∀ a ∈ as, ∃ b, f a = some b := by
  induction as with
  | nil => simp
  | cons a as ih =>
    rw [List.mapM_cons, List.forall_mem_cons, ← ih]
    cases f a with
    | none => simp
    | some b => cases as.mapM f <;> simp

theorem exists_getElem?_of_mapM {f : α → Checked β} {as : List α} {bs : List β}
    (h : as.mapM f = .ok bs) {n : Nat} {a : α} (ha : as[n]? = some a) :
    ∃ b, bs[n]? = some b ∧ f a = .ok b := by
  have hall := mapM_eq_ok_iff.mp h
  clear h
  induction hall generalizing n with
  | nil => simp at ha
  | @cons c b as bs hcb _ ih =>
    cases n with
    | zero =>
      cases ha
      exact ⟨b, rfl, hcb⟩
    | succ n => exact ih ha

theorem exists_of_mapM_mem {f : α → Checked β} {as : List α} {bs : List β}
    (h : as.mapM f = .ok bs) {a : α} (ha : a ∈ as) : ∃ b ∈ bs, f a = .ok b := by
  obtain ⟨n, hn⟩ := List.mem_iff_getElem?.mp ha
  obtain ⟨b, hb, hab⟩ := exists_getElem?_of_mapM h hn
  exact ⟨b, List.mem_of_getElem? hb, hab⟩

theorem exists_mapM_eq_ok {f : α → Checked β} {as : List α} (h : ∀ a ∈ as, ∃ b, f a = .ok b) :
    ∃ bs, as.mapM f = .ok bs := by
  induction as with
  | nil => exact ⟨[], rfl⟩
  | cons a as ih =>
    obtain ⟨b, hb⟩ := h a List.mem_cons_self
    obtain ⟨bs, hbs⟩ := ih fun a' ha' ↦ h a' (List.mem_cons_of_mem _ ha')
    rw [List.mapM_cons, hb, hbs]
    exact ⟨b :: bs, rfl⟩

/-- A sequence of steps stops at the first one that fails. -/
theorem mapM_eq_error_iff {f : α → Checked β} {as : List α} {e : PolicyError} :
    as.mapM f = .error e ↔ ∃ before a after, as = before ++ a :: after ∧
      (∀ c ∈ before, ∃ b, f c = .ok b) ∧ f a = .error e := by
  induction as with
  | nil =>
    rw [List.mapM_nil]
    exact ⟨nofun, by simp⟩
  | cons a as ih =>
    rw [List.mapM_cons, bind_eq_error_iff]
    constructor
    · rintro (h | ⟨b, hb, h⟩)
      · exact ⟨[], a, as, rfl, List.forall_mem_nil _, h⟩
      · rcases bind_eq_error_iff.mp h with h | ⟨bs, -, h⟩
        · obtain ⟨before, c, after, rfl, hbefore, hc⟩ := ih.mp h
          exact ⟨a :: before, c, after, rfl, List.forall_mem_cons.mpr ⟨⟨b, hb⟩, hbefore⟩, hc⟩
        · cases h
    · rintro ⟨before, c, after, has, hbefore, hc⟩
      cases before with
      | nil =>
        cases has
        exact .inl hc
      | cons d before =>
        cases has
        obtain ⟨⟨b, hb⟩, hbefore⟩ := List.forall_mem_cons.mp hbefore
        exact .inr ⟨b, hb, bind_eq_error_iff.mpr (.inl (ih.mpr ⟨before, c, after, rfl, hbefore, hc⟩))⟩

/-- A sequence of steps that fails fails with the error of one of them. -/
theorem exists_of_mapM_eq_error {f : α → Checked β} {as : List α} {e : PolicyError}
    (h : as.mapM f = .error e) : ∃ a ∈ as, f a = .error e := by
  obtain ⟨before, a, after, rfl, -, ha⟩ := mapM_eq_error_iff.mp h
  exact ⟨a, List.mem_append_cons_self, ha⟩

def Succeeds (x : Checked α) : Prop := ∃ a, x = .ok a

theorem succeeds_ok (a : α) : Succeeds (.ok a) := ⟨a, rfl⟩

theorem not_succeeds_error (e : PolicyError) : ¬ Succeeds (.error e : Checked α) := nofun

/-- Where it does not depend on the first result whether the rest succeeds, both have to. -/
theorem succeeds_bind_iff {x : Checked α} {f : α → Checked β} {p q : Prop} (hx : Succeeds x ↔ p)
    (hf : ∀ a, x = .ok a → (Succeeds (f a) ↔ q)) : Succeeds (x >>= f) ↔ p ∧ q := by
  cases x with
  | error e => exact ⟨nofun, fun h ↦ absurd (hx.mpr h.1) (not_succeeds_error e)⟩
  | ok a => exact (hf a rfl).trans (and_iff_right (hx.mp (succeeds_ok a))).symm

theorem succeeds_bind_ok_iff {x : Checked α} {g : α → β} :
    Succeeds (x >>= fun a ↦ .ok (g a)) ↔ Succeeds x :=
  (succeeds_bind_iff .rfl fun a _ ↦ iff_true_intro (succeeds_ok (g a))).trans
    (iff_of_eq (and_true _))

theorem succeeds_mapM_iff {f : α → Checked β} {as : List α} :
    Succeeds (as.mapM f) ↔ ∀ a ∈ as, Succeeds (f a) := by
  constructor
  · rintro ⟨bs, h⟩ a ha
    obtain ⟨b, -, hb⟩ := exists_of_mapM_mem h ha
    exact ⟨b, hb⟩
  · exact exists_mapM_eq_ok

def MalformedOnly (x : Checked α) : Prop := ∀ e, x = .error e → e.kind = .malformedInput

theorem malformedOnly_ok (a : α) : MalformedOnly (.ok a) := nofun

theorem malformedOnly_error {e : PolicyError} (h : e.kind = .malformedInput) :
    MalformedOnly (.error e : Checked α) := by
  rintro _ ⟨⟩
  exact h

theorem malformedOnly_bind {x : Checked α} {f : α → Checked β} (hx : MalformedOnly x)
    (hf : ∀ a, MalformedOnly (f a)) : MalformedOnly (x >>= f) := by
  intro e he
  rcases bind_eq_error_iff.mp he with he | ⟨a, -, he⟩
  · exact hx e he
  · exact hf a e he

theorem malformedOnly_mapM {f : α → Checked β} (hf : ∀ a, MalformedOnly (f a)) (as : List α) :
    MalformedOnly (as.mapM f) := by
  intro e he
  obtain ⟨a, -, ha⟩ := exists_of_mapM_eq_error he
  exact hf a e ha

variable {γ δ : Type} {r : α → β → Prop} {s : γ → δ → Prop}

/-- Both fail with one error, or both have results that are related. -/
inductive Agree (r : α → β → Prop) : Checked α → Checked β → Prop
  | error (e : PolicyError) : Agree r (.error e) (.error e)
  | ok {a : α} {b : β} (h : r a b) : Agree r (.ok a) (.ok b)

theorem agree_eq_iff {x y : Checked α} : Agree Eq x y ↔ x = y := by
  constructor
  · rintro (e | ⟨rfl⟩) <;> rfl
  · rintro rfl
    cases x with
    | error e => exact .error e
    | ok a => exact .ok rfl

theorem Agree.bind {x : Checked α} {y : Checked β} {f : α → Checked γ} {g : β → Checked δ}
    (h : Agree r x y) (hfg : ∀ a b, r a b → Agree s (f a) (g b)) :
    Agree s (x >>= f) (y >>= g) := by
  cases h with
  | error e => exact .error e
  | ok h => exact hfg _ _ h

theorem agree_bind_of_eq {x y : Checked α} {f : α → Checked γ} {g : α → Checked δ} (h : x = y)
    (hfg : ∀ a, Agree s (f a) (g a)) : Agree s (x >>= f) (y >>= g) := by
  refine (agree_eq_iff.mpr h).bind fun a b hab ↦ ?_
  rw [hab]
  exact hfg b

theorem agree_bind_eq_ok {x y : Checked α} {f : α → Checked γ} {g : α → Checked δ} (h : x = y)
    (hfg : ∀ a, x = .ok a → Agree s (f a) (g a)) : Agree s (x >>= f) (y >>= g) := by
  subst h
  cases x with
  | error e => exact .error e
  | ok a => exact hfg a rfl

theorem Agree.with_left {x : Checked α} {y : Checked β} (h : Agree r x y) :
    Agree (fun a b ↦ x = .ok a ∧ r a b) x y := by
  cases h with
  | error e => exact .error e
  | ok h => exact .ok ⟨rfl, h⟩

theorem Agree.imp {x : Checked α} {y : Checked β} {t : α → β → Prop} (h : Agree r x y)
    (ht : ∀ a b, r a b → t a b) : Agree t x y := by
  cases h with
  | error e => exact .error e
  | ok h => exact .ok (ht _ _ h)

theorem Agree.eq_map {x : Checked α} {y : Checked β} {f : α → β}
    (h : Agree (fun a b ↦ b = f a) x y) : y = x.map f := by
  cases h with
  | error e => rfl
  | ok h =>
    rw [h]
    rfl

theorem Agree.bind_eq {x : Checked α} {y : Checked β} {f : α → Checked γ} {g : β → Checked γ}
    (h : Agree r x y) (hfg : ∀ a b, r a b → f a = g b) : (x >>= f) = (y >>= g) :=
  agree_eq_iff.mp (h.bind fun a b hab ↦ agree_eq_iff.mpr (hfg a b hab))

theorem agree_mapM {as : List α} {bs : List β} {f : α → Checked γ} {g : β → Checked δ}
    (h : List.Forall₂ r as bs) (hfg : ∀ a b, r a b → Agree s (f a) (g b)) :
    Agree (List.Forall₂ s) (as.mapM f) (bs.mapM g) := by
  induction h with
  | nil => exact .ok .nil
  | @cons a b as bs hab _ ih =>
    rw [List.mapM_cons, List.mapM_cons]
    refine (hfg a b hab).bind fun c d hcd ↦ ?_
    refine ih.bind fun cs ds hrest ↦ ?_
    exact .ok (.cons hcd hrest)

theorem mapM_congr {as : List α} {bs : List β} {f : α → Checked γ} {g : β → Checked γ}
    (h : List.Forall₂ r as bs) (hfg : ∀ a b, r a b → f a = g b) : as.mapM f = bs.mapM g := by
  have hagree := agree_mapM h fun a b hab ↦ agree_eq_iff.mpr (hfg a b hab)
  rw [List.forall₂_eq_eq_eq] at hagree
  exact agree_eq_iff.mp hagree

end ConfidentialPolicy.Checked

import ConfidentialPolicy.Fields
import ConfidentialPolicy.Proofs.Checked
import ConfidentialPolicy.Proofs.KeyMap

namespace ConfidentialPolicy.Fields

open Json Checked

theorem find?_cons (k : String) (v : Json) (ms : Members) (key : String) :
    find? ⟨(k, v) :: ms⟩ key = if Text.sameLetters k key then some v else find? ⟨ms⟩ key := by
  cases h : Text.sameLetters k key <;> simp [find?, h]

theorem get?_eq_some_iff {f : Fields} {key : String} {v : Json} :
    f.get? key = some v ↔ f.find? key = some v ∧ v.isNull = false := by
  simp [get?, Option.filter_eq_some_iff]

/-- A field has a value: no spelling of its key comes before that of the value, which is not
`null`. -/
def Has (f : Fields) (key : String) (v : Json) : Prop :=
  ∃ k, (k, v) ∈ f.members ∧ Text.sameLetters k key = true ∧ v ≠ .null ∧
    ∀ m ∈ f.members, Text.sameLetters m.1 key = true → k ≤ m.1

theorem find?_eq_some_iff {ms : Members} (hs : KeyMap.Sorted ms) {key : String} {v : Json} :
    find? ⟨ms⟩ key = some v ↔ ∃ k, (k, v) ∈ ms ∧ Text.sameLetters k key = true ∧
      ∀ m ∈ ms, Text.sameLetters m.1 key = true → k ≤ m.1 := by
  -- The members are in the order of their keys: what stands first is before every other spelling.
  induction ms with
  | nil => simp [find?]
  | cons m ms ih =>
    obtain ⟨l, w⟩ := m
    rw [find?_cons]
    split
    · next hl =>
      constructor
      · rintro ⟨⟩
        refine ⟨l, List.mem_cons_self, hl, fun n hn _ ↦ ?_⟩
        rcases List.mem_cons.mp hn with rfl | hn
        · exact String.le_refl _
        · exact String.not_lt.mp (String.lt_asymm (hs.head_lt n hn))
      · rintro ⟨k, hk, -, hfirst⟩
        rcases List.mem_cons.mp hk with hk | hk
        · exact congrArg some (Prod.mk.inj hk).2.symm
        · exact absurd (hs.head_lt _ hk) (String.not_lt.mpr (hfirst _ List.mem_cons_self hl))
    · next hl =>
      rw [ih hs.tail]
      refine exists_congr fun k ↦ ?_
      constructor
      · rintro ⟨hk, hsame, hfirst⟩
        refine ⟨List.mem_cons_of_mem _ hk, hsame, fun n hn hn' ↦ ?_⟩
        rcases List.mem_cons.mp hn with rfl | hn
        · exact absurd hn' hl
        · exact hfirst n hn hn'
      · rintro ⟨hk, hsame, hfirst⟩
        refine ⟨?_, hsame, fun n hn ↦ hfirst n (List.mem_cons_of_mem _ hn)⟩
        rcases List.mem_cons.mp hk with hk | hk
        · exact absurd ((Prod.mk.inj hk).1 ▸ hsame) hl
        · exact hk

/-- Among several spellings of a key the first one counts, and `null` counts as missing. -/
theorem get?_eq_some_iff_has {f : Fields} (hs : KeyMap.Sorted f.members) {key : String}
    {v : Json} : f.get? key = some v ↔ f.Has key v := by
  have hnull : v.isNull = false ↔ v ≠ .null := by cases v <;> simp [isNull]
  rw [get?_eq_some_iff, find?_eq_some_iff hs, hnull, Has]
  constructor
  · rintro ⟨⟨k, hk, hsame, hfirst⟩, hv⟩
    exact ⟨k, hk, hsame, hv, hfirst⟩
  · rintro ⟨k, hk, hsame, hv, hfirst⟩
    exact ⟨⟨k, hk, hsame, hfirst⟩, hv⟩

theorem read_of_find? {f : Fields} {key path : String} {fault : Fault} {α : Type}
    {view : Json → Option α} {v : Json} {a : α} (h : f.find? key = some v)
    (hv : v.isNull = false) (ha : view v = some a) :
    f.read key path fault view = .ok (some a) := by
  simp [read, get?_eq_some_iff.mpr ⟨h, hv⟩, ha]

theorem read_eq_ok {f : Fields} {key path : String} {fault : Fault} {α : Type}
    {view : Json → Option α} {o : Option α} (h : f.read key path fault view = .ok o) :
    f.get? key = none ∧ o = none ∨ ∃ v a, f.get? key = some v ∧ view v = some a ∧ o = some a := by
  unfold read at h
  cases hv : f.get? key with
  | none =>
    rw [hv] at h
    cases h
    exact .inl ⟨rfl, rfl⟩
  | some v =>
    rw [hv] at h
    cases ha : view v with
    | none => simp [ha] at h
    | some a =>
      simp only [ha] at h
      cases h
      exact .inr ⟨v, a, rfl, ha, rfl⟩

section Errors

theorem malformedOnly_ofJson (v : Json) (path : String) : MalformedOnly (ofJson v path) := by
  cases v with
  | obj ms => exact malformedOnly_ok _
  | null | bool | num | str | arr => exact malformedOnly_error rfl

variable (f : Fields) (key path : String)

theorem malformedOnly_read (fault : Fault) {α : Type} (view : Json → Option α) :
    MalformedOnly (f.read key path fault view) := by
  unfold read
  split
  · exact malformedOnly_ok none
  · split
    · exact malformedOnly_ok _
    · exact malformedOnly_error rfl

theorem malformedOnly_string : MalformedOnly (f.string key path) :=
  malformedOnly_read f key path _ _

theorem malformedOnly_bool : MalformedOnly (f.bool key path) := malformedOnly_read f key path _ _

theorem malformedOnly_list : MalformedOnly (f.list key path) := malformedOnly_read f key path _ _

theorem malformedOnly_object : MalformedOnly (f.object key path) :=
  malformedOnly_read f key path _ _

theorem malformedOnly_listOf (fault : Fault) {α : Type} (view : Json → Option α) :
    MalformedOnly (f.listOf key path fault view) := by
  refine malformedOnly_bind (malformedOnly_list f key path) fun o ↦ ?_
  split
  · exact malformedOnly_ok none
  · split
    · exact malformedOnly_ok _
    · exact malformedOnly_error rfl

theorem malformedOnly_strings : MalformedOnly (f.strings key path) :=
  malformedOnly_listOf f key path _ _

theorem malformedOnly_ints : MalformedOnly (f.ints key path) := malformedOnly_listOf f key path _ _

end Errors

section Congruence

variable {f g : Fields} {key : String} (h : f.get? key = g.get? key) (path : String)

include h

theorem read_congr (fault : Fault) {α : Type} (view : Json → Option α) :
    f.read key path fault view = g.read key path fault view := by
  rw [read, read, h]

theorem string_congr : f.string key path = g.string key path := read_congr h path _ _

theorem bool_congr : f.bool key path = g.bool key path := read_congr h path _ _

theorem list_congr : f.list key path = g.list key path := read_congr h path _ _

theorem listOf_congr (fault : Fault) {α : Type} (view : Json → Option α) :
    f.listOf key path fault view = g.listOf key path fault view := by
  rw [listOf, listOf, list_congr h]

theorem strings_congr : f.strings key path = g.strings key path := listOf_congr h path _ _

theorem ints_congr : f.ints key path = g.ints key path := listOf_congr h path _ _

end Congruence

end ConfidentialPolicy.Fields

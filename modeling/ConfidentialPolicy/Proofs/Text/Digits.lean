import ConfidentialPolicy.Text.Digits
import Mathlib.Data.List.TakeWhile

namespace ConfidentialPolicy.Text

theorem isDigit_of_mem_toDigits {n : Nat} {c : Char} (h : c ∈ Nat.toDigits 10 n) :
    isDigit c = true := by
  have hc := Nat.isDigit_of_mem_toDigits (by decide) (by decide) h
  simpa [isDigit, Char.isDigit, Char.le_def] using hc

theorem takeWhile_toDigits (n : Nat) : (Nat.toDigits 10 n).takeWhile isDigit = Nat.toDigits 10 n :=
  List.takeWhile_eq_self_iff.mpr fun _ h ↦ isDigit_of_mem_toDigits h

theorem dropWhile_toDigits (n : Nat) : (Nat.toDigits 10 n).dropWhile isDigit = [] :=
  List.dropWhile_eq_nil_iff.mpr fun _ h ↦ isDigit_of_mem_toDigits h

theorem natOf_toDigits (n : Nat) : natOf (Nat.toDigits 10 n) = n :=
  Nat.ofDigitChars_ten_toDigits

theorem digitChar_ne_zero {n : Nat} (h : 0 < n) (hn : n < 10) : n.digitChar ≠ '0' := by
  have hall : ∀ m < 10, 0 < m → m.digitChar ≠ '0' := by decide
  exact hall n hn h

theorem head?_toDigits_ne_zero {n : Nat} (h : 0 < n) : (Nat.toDigits 10 n).head? ≠ some '0' := by
  induction n using Nat.strongRecOn with
  | ind n ih =>
    by_cases hn : n < 10
    · rw [Nat.toDigits_of_lt_base hn]
      simpa using digitChar_ne_zero h hn
    · have hne := ih (n / 10) (by omega) (by omega)
      rw [Nat.toDigits_of_base_le (by decide) (by omega), List.head?_append]
      cases hd : Nat.toDigits 10 (n / 10) with
      | nil => exact absurd hd Nat.toDigits_ne_nil
      | cons c cs => simpa [hd] using hne

theorem toNat_of_isDigit {c : Char} (h : isDigit c = true) : 48 ≤ c.toNat ∧ c.toNat ≤ 57 := by
  simpa [isDigit, Char.le_def, UInt32.le_iff_toNat_le] using h

theorem digitValue_lt {c : Char} (h : isDigit c = true) : digitValue c < 10 := by
  have hc := toNat_of_isDigit h
  have hzero : '0'.toNat = 48 := rfl
  rw [digitValue]
  omega

theorem digitChar_digitValue {c : Char} (h : isDigit c = true) :
    (digitValue c).digitChar = c := by
  have hc := toNat_of_isDigit h
  have hzero : '0'.toNat = 48 := rfl
  rw [← Char.toNat_inj, Nat.toNat_digitChar_of_lt_ten (digitValue_lt h), digitValue]
  omega

/-- More digits after those of a positive number. -/
theorem toDigits_append {n : Nat} (h : 0 < n) {ds : List Char} (hds : ∀ c ∈ ds, isDigit c = true) :
    Nat.toDigits 10 n ++ ds =
      Nat.toDigits 10 (ds.foldl (fun n c ↦ 10 * n + digitValue c) n) := by
  induction ds generalizing n with
  | nil => rw [List.append_nil, List.foldl_nil]
  | cons c ds ih =>
    have hc : isDigit c = true := hds c List.mem_cons_self
    have hlt := digitValue_lt hc
    rw [List.foldl_cons, ← ih (by omega) fun d hd ↦ hds d (List.mem_cons_of_mem c hd),
      ← Nat.toDigits_append_toDigits (by decide) h hlt, Nat.toDigits_of_lt_base hlt,
      digitChar_digitValue hc, List.append_assoc, List.singleton_append]

theorem natOf_replicate_append (zeros : Nat) (ds : List Char) :
    natOf (List.replicate zeros '0' ++ ds) = natOf ds := by
  induction zeros with
  | zero => rfl
  | succ zeros ih => exact ih

/-- The digits of a number, with any zeros before them. -/
def Denotes (ds : List Char) (n : Nat) : Prop :=
  ∃ zeros, ds = List.replicate zeros '0' ++ Nat.toDigits 10 n

theorem Denotes.isDigit_of_mem {ds : List Char} {n : Nat} (h : Denotes ds n) {c : Char}
    (hc : c ∈ ds) : isDigit c = true := by
  obtain ⟨zeros, rfl⟩ := h
  rcases List.mem_append.mp hc with hc | hc
  · rw [List.eq_of_mem_replicate hc]
    rfl
  · exact isDigit_of_mem_toDigits hc

theorem denotes_natOf {ds : List Char} (hne : ds ≠ []) (hds : ∀ c ∈ ds, isDigit c = true) :
    Denotes ds (natOf ds) := by
  induction ds with
  | nil => exact absurd rfl hne
  | cons c ds ih =>
    obtain ⟨hc, htail⟩ := List.forall_mem_cons.mp hds
    by_cases hzero : c = '0'
    · subst hzero
      cases ds with
      | nil => exact ⟨0, rfl⟩
      | cons d ds =>
        obtain ⟨zeros, heq⟩ := ih (List.cons_ne_nil d ds) htail
        exact ⟨zeros + 1, congrArg ('0' :: ·) heq⟩
    · have hpos : 0 < digitValue c := by
        refine Nat.pos_of_ne_zero fun hvalue ↦ hzero ?_
        rw [← digitChar_digitValue hc, hvalue, Nat.digitChar_eq_zero]
      have happend := toDigits_append hpos htail
      rw [Nat.toDigits_of_lt_base (digitValue_lt hc), digitChar_digitValue hc] at happend
      refine ⟨0, happend.trans ?_⟩
      rw [natOf, List.foldl_cons, Nat.mul_zero, Nat.zero_add]
      rfl

theorem denotes_iff {ds : List Char} {n : Nat} :
    Denotes ds n ↔ (ds ≠ [] ∧ ds.all isDigit = true) ∧ natOf ds = n := by
  constructor
  · intro h
    have hall : ds.all isDigit = true := List.all_eq_true.mpr fun c ↦ h.isDigit_of_mem
    obtain ⟨zeros, rfl⟩ := h
    refine ⟨⟨List.append_ne_nil_of_right_ne_nil _ Nat.toDigits_ne_nil, hall⟩, ?_⟩
    rw [natOf_replicate_append, natOf_toDigits]
  · rintro ⟨⟨hne, hds⟩, rfl⟩
    exact denotes_natOf hne (List.all_eq_true.mp hds)

end ConfidentialPolicy.Text

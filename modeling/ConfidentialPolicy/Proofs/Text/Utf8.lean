import ConfidentialPolicy.Text.Utf8
import Mathlib.Tactic.Common

namespace ConfidentialPolicy.Text.Utf8

theorem toNat_toUInt8 {n : Nat} (h : n < 0x100) : n.toUInt8.toNat = n :=
  UInt8.toNat_ofNat_of_lt' h

theorem toUInt8_of_eq {n : Nat} {b : UInt8} (h : n = b.toNat) : n.toUInt8 = b := by
  rw [h]
  exact UInt8.ofNat_toNat

theorem char?_toNat {least : Nat} {c : Char} (h : least ≤ c.toNat) :
    char? least c.toNat = some c := by
  rw [char?, if_pos ⟨h, c.valid⟩, Char.ofNat_toNat]

namespace Decoder

variable {d : Decoder} {b : UInt8} {n : Nat} {c : Char}

theorem step_single (hd : d.missing = 0) (hb : b.toNat = c.toNat) (h : c.toNat < 0x80) :
    d.step b = some { d with done := c :: d.done } := by
  have hlt : b < 0x80 := by
    rw [UInt8.lt_iff_toNat_lt, hb]
    exact h
  rw [step, if_pos hd, if_pos hlt, hb, Char.ofNat_toNat]

theorem step_lead_two (hd : d.missing = 0) (hb : b.toNat = 0xC0 + n) (h : n < 0x20) :
    d.step b = some { d with missing := 1, number := n, least := 0x80 } := by
  simp only [step, hd, UInt8.lt_iff_toNat_lt, hb, UInt8.reduceToNat, Nat.add_sub_cancel_left]
  rw [if_pos trivial, if_neg (by omega), if_neg (by omega), if_pos (by omega)]

theorem step_lead_three (hd : d.missing = 0) (hb : b.toNat = 0xE0 + n) (h : n < 0x10) :
    d.step b = some { d with missing := 2, number := n, least := 0x800 } := by
  simp only [step, hd, UInt8.lt_iff_toNat_lt, hb, UInt8.reduceToNat, Nat.add_sub_cancel_left]
  rw [if_pos trivial, if_neg (by omega), if_neg (by omega), if_neg (by omega), if_pos (by omega)]

theorem step_lead_four (hd : d.missing = 0) (hb : b.toNat = 0xF0 + n) (h : n < 0x08) :
    d.step b = some { d with missing := 3, number := n, least := 0x10000 } := by
  simp only [step, hd, UInt8.lt_iff_toNat_lt, hb, UInt8.reduceToNat, Nat.add_sub_cancel_left]
  rw [if_pos trivial, if_neg (by omega), if_neg (by omega), if_neg (by omega), if_neg (by omega),
    if_pos (by omega)]

theorem isContinuation_of_toNat_eq (hb : b.toNat = 0x80 + n) (h : n < 0x40) :
    isContinuation b = true := by
  simp only [isContinuation, UInt8.le_iff_toNat_le, UInt8.lt_iff_toNat_lt, hb, UInt8.reduceToNat,
    Bool.and_eq_true, decide_eq_true_eq]
  omega

theorem extend_of_toNat_eq (hb : b.toNat = 0x80 + n) (m : Nat) : extend m b = m * 0x40 + n := by
  unfold extend
  omega

theorem step_more {missing : Nat} (hd : d.missing = missing + 2) (hb : b.toNat = 0x80 + n)
    (h : n < 0x40) :
    d.step b = some { d with missing := missing + 1, number := d.number * 0x40 + n } := by
  simp [step, hd, isContinuation_of_toNat_eq hb h, extend_of_toNat_eq hb]

theorem step_last (hd : d.missing = 1) (hb : b.toNat = 0x80 + n) (h : n < 0x40)
    (hc : d.number * 0x40 + n = c.toNat) (hl : d.least ≤ c.toNat) :
    d.step b = some { d with done := c :: d.done, missing := 0 } := by
  simp [step, hd, isContinuation_of_toNat_eq hb h, extend_of_toNat_eq hb, hc, char?_toNat hl]

theorem run_cons {e : Decoder} (h : d.step b = some e) (bs : List UInt8) :
    d.run (b :: bs) = e.run bs := by
  rw [run, List.foldlM_cons, h]
  rfl

/-- The octets of a character are read as that character. -/
theorem run_encodeChar (hd : d.missing = 0) (c : Char) :
    ∃ e, d.run (encodeChar c) = some e ∧ e.done = c :: d.done ∧ e.missing = 0 := by
  have hc : c.toNat < 0x110000 := by
    rcases c.valid with h | h <;> simp only [Char.toNat, UInt32.toNat] at * <;> omega
  -- One case for each length; the last octet completes the number of `c`.
  simp only [encodeChar]
  split
  · next h1 => exact ⟨_, run_cons (step_single hd (toNat_toUInt8 (by omega)) h1) [], rfl, hd⟩
  split
  · next h1 h2 =>
    rw [run_cons (step_lead_two hd (toNat_toUInt8 (by omega)) (by omega)),
      run_cons (step_last (c := c) rfl (toNat_toUInt8 (by omega)) (by omega) (by simp only; omega)
        (by simp only; omega))]
    exact ⟨_, rfl, rfl, rfl⟩
  split
  · next h1 h2 h3 =>
    rw [run_cons (step_lead_three hd (toNat_toUInt8 (by omega)) (by omega)),
      run_cons (step_more rfl (toNat_toUInt8 (by omega)) (by omega)),
      run_cons (step_last (c := c) rfl (toNat_toUInt8 (by omega)) (by omega) (by simp only; omega)
        (by simp only; omega))]
    exact ⟨_, rfl, rfl, rfl⟩
  · next h1 h2 h3 =>
    rw [run_cons (step_lead_four hd (toNat_toUInt8 (by omega)) (by omega)),
      run_cons (step_more rfl (toNat_toUInt8 (by omega)) (by omega)),
      run_cons (step_more rfl (toNat_toUInt8 (by omega)) (by omega)),
      run_cons (step_last (c := c) rfl (toNat_toUInt8 (by omega)) (by omega) (by simp only; omega)
        (by simp only; omega))]
    exact ⟨_, rfl, rfl, rfl⟩

theorem run_encode (hd : d.missing = 0) (s : List Char) :
    ∃ e, d.run (encode s) = some e ∧ e.done = s.reverse ++ d.done ∧ e.missing = 0 := by
  induction s generalizing d with
  | nil => exact ⟨d, rfl, rfl, hd⟩
  | cons c s ih =>
    obtain ⟨e, he, hdone, hmissing⟩ := run_encodeChar hd c
    obtain ⟨f, hf, hfdone, hfmissing⟩ := ih hmissing
    refine ⟨f, ?_, ?_, hfmissing⟩
    · rw [encode, List.flatMap_cons, run_append, he]
      exact hf
    · rw [hfdone, hdone, List.reverse_cons, List.append_assoc, List.singleton_append]

end Decoder

theorem decode?_encode (s : List Char) : decode? (encode s) = some s := by
  obtain ⟨e, he, hdone, hmissing⟩ := Decoder.run_encode (d := .start) rfl s
  have hs : e.done.reverse = s := by
    rw [hdone, Decoder.start, List.append_nil, List.reverse_reverse]
  rw [decode?, he]
  simp [hmissing, hs]

theorem encode_ne_nil {s : List Char} (h : s ≠ []) : encode s ≠ [] := by
  intro he
  have hd := decode?_encode s
  rw [he] at hd
  exact h (Option.some.inj hd).symm

theorem toNat_of_char? {least n : Nat} {c : Char} (h : char? least n = some c) :
    c.toNat = n ∧ least ≤ n := by
  unfold char? at h
  split at h
  · next hn =>
    cases h
    refine ⟨?_, hn.1⟩
    rw [Char.ofNat, dif_pos hn.2]
    rfl
  · cases h

/-- The octets read of a character that is not complete, by how many are missing, the number so far
and the least number of this length. -/
inductive Partial : Nat → Nat → Nat → List UInt8 → Prop where
  | two {n b} (hb : b.toNat = 0xC0 + n) (hn : n < 0x20) : Partial 1 n 0x80 [b]
  | three {n b} (hb : b.toNat = 0xE0 + n) (hn : n < 0x10) : Partial 2 n 0x800 [b]
  | four {n b} (hb : b.toNat = 0xF0 + n) (hn : n < 0x08) : Partial 3 n 0x10000 [b]
  | more {missing number least n bs b} (h : Partial (missing + 2) number least bs)
      (hb : b.toNat = 0x80 + n) (hn : n < 0x40) :
      Partial (missing + 1) (number * 0x40 + n) least (bs ++ [b])

theorem Partial.missing_le {missing number least : Nat} {bs : List UInt8}
    (h : Partial missing number least bs) : missing ≤ 3 := by
  induction h with
  | two | three | four => omega
  | more h hb hn ih => omega

/-- The last octet makes up the octets of the character with the number. -/
theorem Partial.encodeChar_eq {number least n : Nat} {bs : List UInt8} {b : UInt8} {c : Char}
    (h : Partial 1 number least bs) (hb : b.toNat = 0x80 + n) (hn : n < 0x40)
    (hc : c.toNat = number * 0x40 + n) (hl : least ≤ c.toNat) : encodeChar c = bs ++ [b] := by
  cases h with
  | @two m₁ b₁ hb₁ hm₁ =>
    rw [encodeChar, if_neg (by omega), if_pos (by omega), toUInt8_of_eq (b := b₁) (by omega),
      toUInt8_of_eq (b := b) (by omega)]
    rfl
  | @more _ _ _ m₂ _ b₂ h hb₂ hm₂ =>
    cases h with
    | @three m₁ b₁ hb₁ hm₁ =>
      rw [encodeChar, if_neg (by omega), if_neg (by omega), if_pos (by omega),
        toUInt8_of_eq (b := b₁) (by omega), toUInt8_of_eq (b := b₂) (by omega),
        toUInt8_of_eq (b := b) (by omega)]
      rfl
    | @more _ _ _ m₃ _ b₃ h hb₃ hm₃ =>
      cases h with
      | @four m₁ b₁ hb₁ hm₁ =>
        rw [encodeChar, if_neg (by omega), if_neg (by omega), if_neg (by omega),
          toUInt8_of_eq (b := b₁) (by omega), toUInt8_of_eq (b := b₃) (by omega),
          toUInt8_of_eq (b := b₂) (by omega), toUInt8_of_eq (b := b) (by omega)]
        rfl
      | more h hb₄ hm₄ =>
        have hle := h.missing_le
        omega

theorem encodeChar_of_lt {b : UInt8} (h : b.toNat < 0x80) :
    encodeChar (Char.ofNat b.toNat) = [b] := by
  have hc : (Char.ofNat b.toNat).toNat = b.toNat := by
    rw [Char.ofNat, dif_pos (Or.inl (by omega))]
    rfl
  rw [encodeChar, if_pos (by omega), toUInt8_of_eq hc]

theorem encode_concat (s : List Char) (c : Char) :
    encode (s ++ [c]) = encode s ++ encodeChar c := by
  rw [encode, List.flatMap_append, List.flatMap_singleton]
  rfl

namespace Decoder

/-- The octets that brought the decoder to where it is: those of the characters it has read, and
those of the character it is in. -/
def HasRead (d : Decoder) (bs : List UInt8) : Prop :=
  ∃ current, bs = encode d.done.reverse ++ current ∧
    (d.missing = 0 ∧ current = [] ∨ Partial d.missing d.number d.least current)

variable {d e : Decoder} {b : UInt8} {bs : List UInt8}

theorem HasRead.step_between (hd : d.HasRead bs) (hmissing : d.missing = 0)
    (h : d.step b = some e) : e.HasRead (bs ++ [b]) := by
  have hbs : bs = encode d.done.reverse := by
    obtain ⟨current, rfl, ⟨-, rfl⟩ | hpartial⟩ := hd
    · exact List.append_nil _
    · rw [hmissing] at hpartial
      nomatch hpartial
  -- The octet is a character of its own, or the first of one with up to three more.
  simp only [step, if_pos hmissing, UInt8.lt_iff_toNat_lt, UInt8.reduceToNat] at h
  split at h
  · next hb =>
    cases h
    refine ⟨[], ?_, Or.inl ⟨hmissing, rfl⟩⟩
    rw [List.reverse_cons, encode_concat, encodeChar_of_lt hb, hbs, List.append_nil]
  split at h
  · cases h
  split at h
  · next hb =>
    cases h
    have hpartial : Partial 1 (b.toNat - 0xC0) 0x80 [b] := .two (by omega) (by omega)
    exact ⟨[b], by rw [hbs], Or.inr hpartial⟩
  split at h
  · next hb =>
    cases h
    have hpartial : Partial 2 (b.toNat - 0xE0) 0x800 [b] := .three (by omega) (by omega)
    exact ⟨[b], by rw [hbs], Or.inr hpartial⟩
  split at h
  · next hb =>
    cases h
    have hpartial : Partial 3 (b.toNat - 0xF0) 0x10000 [b] := .four (by omega) (by omega)
    exact ⟨[b], by rw [hbs], Or.inr hpartial⟩
  · cases h

theorem HasRead.step_within (hd : d.HasRead bs) (hmissing : d.missing ≠ 0)
    (h : d.step b = some e) : e.HasRead (bs ++ [b]) := by
  obtain ⟨current, rfl, ⟨hzero, -⟩ | hpartial⟩ := hd
  · exact absurd hzero hmissing
  simp only [step, if_neg hmissing] at h
  split at h
  · cases h
  next hb =>
  obtain ⟨n, hn, hlt⟩ : ∃ n, b.toNat = 0x80 + n ∧ n < 0x40 := by
    simp only [isContinuation, UInt8.le_iff_toNat_le, UInt8.lt_iff_toNat_lt, UInt8.reduceToNat,
      Bool.not_eq_true, Bool.not_eq_false', Bool.and_eq_true, decide_eq_true_eq] at hb
    exact ⟨b.toNat - 0x80, by omega, by omega⟩
  -- The octet ends its character, which is then encoded by the octets read, or stays within it.
  rw [extend_of_toNat_eq hn] at h
  split at h
  · next hone =>
    obtain ⟨c, hc, he⟩ := Option.map_eq_some_iff.mp h
    obtain ⟨hnumber, hleast⟩ := toNat_of_char? hc
    cases he
    rw [hone] at hpartial
    refine ⟨[], ?_, Or.inl ⟨rfl, rfl⟩⟩
    rw [List.reverse_cons, encode_concat, hpartial.encodeChar_eq hn hlt hnumber (by omega),
      List.append_assoc, List.append_nil]
  · next hmore =>
    cases h
    obtain ⟨missing, hm⟩ : ∃ missing, d.missing = missing + 2 := ⟨d.missing - 2, by omega⟩
    rw [hm] at hpartial
    refine ⟨current ++ [b], List.append_assoc _ _ _, Or.inr ?_⟩
    simp only [hm, Nat.add_one_sub_one]
    exact hpartial.more hn hlt

theorem HasRead.step (hd : d.HasRead bs) (h : d.step b = some e) : e.HasRead (bs ++ [b]) := by
  by_cases hmissing : d.missing = 0
  · exact hd.step_between hmissing h
  · exact hd.step_within hmissing h

theorem HasRead.run {as : List UInt8} (hd : d.HasRead as) (h : d.run bs = some e) :
    e.HasRead (as ++ bs) := by
  induction bs generalizing d as with
  | nil =>
    cases h
    rwa [List.append_nil]
  | cons b bs ih =>
    rw [Decoder.run, List.foldlM_cons] at h
    obtain ⟨next, hnext, hrun⟩ := Option.bind_eq_some_iff.mp h
    have hread := ih (hd.step hnext) hrun
    rwa [List.append_assoc] at hread

theorem hasRead_start : start.HasRead [] := ⟨[], rfl, Or.inl ⟨rfl, rfl⟩⟩

end Decoder

/-- Nothing but what `encode` writes is read. -/
theorem encode_of_decode? {s : List Char} {bs : List UInt8} (h : decode? bs = some s) :
    encode s = bs := by
  obtain ⟨e, he, h⟩ := Option.bind_eq_some_iff.mp h
  obtain ⟨current, hbs, hend⟩ := Decoder.hasRead_start.run he
  split at h
  · next hmissing =>
    cases h
    rcases hend with ⟨-, rfl⟩ | hpartial
    · rw [List.append_nil] at hbs
      exact hbs.symm
    · rw [hmissing] at hpartial
      nomatch hpartial
  · cases h

theorem decode?_eq_some_iff {s : List Char} {bs : List UInt8} :
    decode? bs = some s ↔ bs = encode s := by
  constructor
  · intro h
    exact (encode_of_decode? h).symm
  · intro h
    rw [h, decode?_encode]

end ConfidentialPolicy.Text.Utf8

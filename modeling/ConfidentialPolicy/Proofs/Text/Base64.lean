import ConfidentialPolicy.Proofs.Text.Utf8
import ConfidentialPolicy.Text.Base64
import ConfidentialPolicy.Text.Blank

namespace ConfidentialPolicy.Text.Base64

open Utf8 (toNat_toUInt8 toUInt8_of_eq)

theorem value?_char {n : Nat} (h : n < 64) : value? (char n) = some n := by
  have hall : ∀ m < 64, value? (char m) = some m := by decide
  exact hall n h

theorem char_ne_pad {n : Nat} (h : n < 64) : char n ≠ '=' := by
  have hall : ∀ m < 64, char m ≠ '=' := by decide
  exact hall n h

theorem isBlank_char {n : Nat} (h : n < 64) : isBlank (char n) = false := by
  have hall : ∀ m < 64, isBlank (char m) = false := by decide
  exact hall n h

variable {m n k l : Nat}

theorem decodeLast?_char_pad_pad (hm : m < 64) (hn : n < 64) (h : n % 16 = 0) :
    decodeLast? (char m) (char n) '=' '=' = some [(m * 4 + n / 16).toUInt8] := by
  simp only [decodeLast?, value?_char hm, value?_char hn, h, Option.bind_eq_bind, Option.bind_some,
    and_self, if_true]

theorem decodeLast?_char_pad (hm : m < 64) (hn : n < 64) (hk : k < 64) (h : k % 4 = 0) :
    decodeLast? (char m) (char n) (char k) '=' =
      some [(m * 4 + n / 16).toUInt8, (n % 16 * 16 + k / 4).toUInt8] := by
  simp only [decodeLast?, value?_char hm, value?_char hn, value?_char hk, char_ne_pad hk, h,
    Option.bind_eq_bind, Option.bind_some, if_true, if_false]

theorem decodeGroup?_char (hm : m < 64) (hn : n < 64) (hk : k < 64) (hl : l < 64) :
    decodeGroup? (char m) (char n) (char k) (char l) =
      some [(m * 4 + n / 16).toUInt8, (n % 16 * 16 + k / 4).toUInt8,
        (k % 4 * 64 + l).toUInt8] := by
  simp only [decodeGroup?, decodeLast?, value?_char hm, value?_char hn, value?_char hk,
    value?_char hl, char_ne_pad hk, char_ne_pad hl, or_self, Option.bind_eq_bind, Option.bind_some,
    if_false]

theorem decode?_cons {a b c d : Char} {rest : List Char} {group octets : List UInt8}
    (hg : decodeGroup? a b c d = some group) (hr : decode? rest = some octets) :
    decode? (a :: b :: c :: d :: rest) = some (group ++ octets) := by
  cases rest with
  | nil =>
    cases hr
    rw [List.append_nil, ← hg, decodeGroup?]
    split
    · next hpad => simp [decodeGroup?, hpad] at hg
    · rfl
  | cons e rest =>
    rw [decode?, hg, hr]
    · rfl
    · simp

theorem decode?_encode (bs : List UInt8) : decode? (encode bs) = some bs := by
  induction bs using encode.induct with
  | case1 => rfl
  | case2 a =>
    have ha := a.toNat_lt
    refine (decodeLast?_char_pad_pad (by omega) (by omega) (by omega)).trans ?_
    rw [toUInt8_of_eq (b := a) (by omega)]
  | case3 a b =>
    have ha := a.toNat_lt
    have hb := b.toNat_lt
    refine (decodeLast?_char_pad (by omega) (by omega) (by omega) (by omega)).trans ?_
    rw [toUInt8_of_eq (b := a) (by omega), toUInt8_of_eq (b := b) (by omega)]
  | case4 a b c rest ih =>
    have ha := a.toNat_lt
    have hb := b.toNat_lt
    have hc := c.toNat_lt
    refine (decode?_cons (decodeGroup?_char (by omega) (by omega) (by omega) (by omega))
      ih).trans ?_
    rw [toUInt8_of_eq (b := a) (by omega), toUInt8_of_eq (b := b) (by omega),
      toUInt8_of_eq (b := c) (by omega)]
    rfl

theorem isBlank_of_mem_encode {bs : List UInt8} {c : Char} (h : c ∈ encode bs) :
    isBlank c = false := by
  induction bs using encode.induct with
  | case1 => simp [encode] at h
  | case2 a =>
    have ha := a.toNat_lt
    simp only [encode, List.mem_cons, List.not_mem_nil, or_false] at h
    rcases h with rfl | rfl | rfl | rfl
    · exact isBlank_char (by omega)
    · exact isBlank_char (by omega)
    · rfl
    · rfl
  | case3 a b =>
    have ha := a.toNat_lt
    have hb := b.toNat_lt
    simp only [encode, List.mem_cons, List.not_mem_nil, or_false] at h
    rcases h with rfl | rfl | rfl | rfl
    · exact isBlank_char (by omega)
    · exact isBlank_char (by omega)
    · exact isBlank_char (by omega)
    · rfl
  | case4 a b c rest ih =>
    have ha := a.toNat_lt
    have hb := b.toNat_lt
    have hc := c.toNat_lt
    simp only [encode, List.mem_cons] at h
    rcases h with rfl | rfl | rfl | rfl | h
    · exact isBlank_char (by omega)
    · exact isBlank_char (by omega)
    · exact isBlank_char (by omega)
    · exact isBlank_char (by omega)
    · exact ih h

theorem dropWhile_isBlank_eq_self {s : List Char} (h : ∀ c ∈ s, isBlank c = false) :
    s.dropWhile isBlank = s := by
  cases s with
  | nil => rfl
  | cons c s => exact List.dropWhile_cons_of_neg (by simp [h c List.mem_cons_self])

theorem trim_encode (bs : List UInt8) : trim (encode bs) = encode bs := by
  have hstart : (encode bs).dropWhile isBlank = encode bs :=
    dropWhile_isBlank_eq_self fun _ ↦ isBlank_of_mem_encode
  have hend : (encode bs).reverse.dropWhile isBlank = (encode bs).reverse :=
    dropWhile_isBlank_eq_self fun _ hc ↦ isBlank_of_mem_encode (List.mem_reverse.mp hc)
  rw [trim, trimStart, hstart, trimEnd, hend, List.reverse_reverse]

theorem encode_ne_nil {bs : List UInt8} (h : bs ≠ []) : encode bs ≠ [] := by
  intro he
  have hd := decode?_encode bs
  rw [he] at hd
  exact h (Option.some.inj hd).symm

theorem char_of_value? {c : Char} {n : Nat} (h : value? c = some n) : n < 64 ∧ char n = c := by
  -- In each range of the alphabet the number is the code point moved by a constant.
  have hmoved : ∀ k, k = c.toNat → Char.ofNat k = c := by
    intro k hk
    rw [hk, Char.ofNat_toNat]
  unfold value? at h
  split at h
  · next hc =>
    have hlow : 65 ≤ c.toNat := hc.1
    have hhigh : c.toNat ≤ 90 := hc.2
    cases h
    refine ⟨by omega, ?_⟩
    rw [char, if_pos (by omega)]
    exact hmoved _ (by omega)
  split at h
  · next hc =>
    have hlow : 97 ≤ c.toNat := hc.1
    have hhigh : c.toNat ≤ 122 := hc.2
    cases h
    refine ⟨by omega, ?_⟩
    rw [char, if_neg (by omega), if_pos (by omega)]
    exact hmoved _ (by omega)
  split at h
  · next hc =>
    have hlow : 48 ≤ c.toNat := hc.1
    have hhigh : c.toNat ≤ 57 := hc.2
    cases h
    refine ⟨by omega, ?_⟩
    rw [char, if_neg (by omega), if_neg (by omega), if_pos (by omega)]
    exact hmoved _ (by omega)
  split at h
  · next hc =>
    cases h
    exact ⟨by omega, hc.symm⟩
  split at h
  · next hc =>
    cases h
    exact ⟨by omega, hc.symm⟩
  · cases h

theorem toNat_first (hm : m < 64) (hn : n < 64) :
    (m * 4 + n / 16).toUInt8.toNat = m * 4 + n / 16 :=
  toNat_toUInt8 (by omega)

theorem toNat_second (hk : k < 64) :
    (n % 16 * 16 + k / 4).toUInt8.toNat = n % 16 * 16 + k / 4 :=
  toNat_toUInt8 (by omega)

theorem toNat_third (hl : l < 64) : (k % 4 * 64 + l).toUInt8.toNat = k % 4 * 64 + l :=
  toNat_toUInt8 (by omega)

theorem encode_group (hm : m < 64) (hn : n < 64) (hk : k < 64) (hl : l < 64) (rest : List UInt8) :
    encode ((m * 4 + n / 16).toUInt8 :: (n % 16 * 16 + k / 4).toUInt8 ::
        (k % 4 * 64 + l).toUInt8 :: rest) =
      char m :: char n :: char k :: char l :: encode rest := by
  rw [encode, toNat_first hm hn, toNat_second hk, toNat_third hl,
    show (m * 4 + n / 16) / 4 = m by omega,
    show (m * 4 + n / 16) % 4 * 16 + (n % 16 * 16 + k / 4) / 16 = n by omega,
    show (n % 16 * 16 + k / 4) % 16 * 4 + (k % 4 * 64 + l) / 64 = k by omega,
    show (k % 4 * 64 + l) % 64 = l by omega]

theorem encode_pair (hm : m < 64) (hn : n < 64) (hk : k < 64) (h : k % 4 = 0) :
    encode [(m * 4 + n / 16).toUInt8, (n % 16 * 16 + k / 4).toUInt8] =
      [char m, char n, char k, '='] := by
  rw [encode, toNat_first hm hn, toNat_second hk, show (m * 4 + n / 16) / 4 = m by omega,
    show (m * 4 + n / 16) % 4 * 16 + (n % 16 * 16 + k / 4) / 16 = n by omega,
    show (n % 16 * 16 + k / 4) % 16 * 4 = k by omega]

theorem encode_single (hm : m < 64) (hn : n < 64) (h : n % 16 = 0) :
    encode [(m * 4 + n / 16).toUInt8] = [char m, char n, '=', '='] := by
  rw [encode, toNat_first hm hn, show (m * 4 + n / 16) / 4 = m by omega,
    show (m * 4 + n / 16) % 4 * 16 = n by omega]

theorem encode_of_decodeGroup? {a b c d : Char} {group : List UInt8}
    (h : decodeGroup? a b c d = some group) (rest : List UInt8) :
    encode (group ++ rest) = a :: b :: c :: d :: encode rest := by
  unfold decodeGroup? at h
  split at h
  · cases h
  next hpad =>
  obtain ⟨hc, hd⟩ := not_or.mp hpad
  simp only [decodeLast?, if_neg hc, if_neg hd, Option.bind_eq_bind, Option.bind_eq_some_iff] at h
  obtain ⟨m, hm, n, hn, k, hk, l, hl, hgroup⟩ := h
  cases hgroup
  obtain ⟨hm64, rfl⟩ := char_of_value? hm
  obtain ⟨hn64, rfl⟩ := char_of_value? hn
  obtain ⟨hk64, rfl⟩ := char_of_value? hk
  obtain ⟨hl64, rfl⟩ := char_of_value? hl
  exact encode_group hm64 hn64 hk64 hl64 rest

theorem encode_of_decodeLast? {a b c d : Char} {octets : List UInt8}
    (h : decodeLast? a b c d = some octets) : encode octets = [a, b, c, d] := by
  -- Without padding the last group is like any other.
  by_cases hpad : c = '=' ∨ d = '='
  · simp only [decodeLast?, Option.bind_eq_bind, Option.bind_eq_some_iff] at h
    obtain ⟨m, hm, n, hn, h⟩ := h
    obtain ⟨hm64, rfl⟩ := char_of_value? hm
    obtain ⟨hn64, rfl⟩ := char_of_value? hn
    split at h
    · next hc =>
      split at h
      · next hd =>
        cases h
        rw [hc, hd.1]
        exact encode_single hm64 hn64 hd.2
      · cases h
    next hc =>
    have hd : d = '=' := hpad.resolve_left hc
    simp only [if_pos hd, Option.bind_eq_some_iff] at h
    obtain ⟨k, hk, h⟩ := h
    obtain ⟨hk64, rfl⟩ := char_of_value? hk
    split at h
    · next hzero =>
      cases h
      rw [hd]
      exact encode_pair hm64 hn64 hk64 hzero
    · cases h
  · have hgroup : decodeGroup? a b c d = some octets := by rwa [decodeGroup?, if_neg hpad]
    have henc := encode_of_decodeGroup? hgroup []
    rwa [List.append_nil] at henc

/-- Nothing but what `encode` writes is read: the padding must be there, and the unused bits before
it must be zero. -/
theorem encode_of_decode? {s : List Char} {bs : List UInt8} (h : decode? s = some bs) :
    encode bs = s := by
  induction s using decode?.induct generalizing bs with
  | case1 =>
    cases h
    rfl
  | case2 a b c d => exact encode_of_decodeLast? h
  | case3 a b c d rest hrest ih =>
    rw [decode?, Option.bind_eq_bind, Option.bind_eq_some_iff] at h
    · obtain ⟨group, hgroup, h⟩ := h
      obtain ⟨others, hothers, h⟩ := Option.bind_eq_some_iff.mp h
      cases h
      rw [encode_of_decodeGroup? hgroup, ih hothers]
    · exact hrest
  | case4 s h1 h2 h3 =>
    rw [decode?] at h
    · cases h
    · exact h1
    · exact h2
    · exact h3

theorem decode?_eq_some_iff {s : List Char} {bs : List UInt8} :
    decode? s = some bs ↔ s = encode bs := by
  constructor
  · intro h
    exact (encode_of_decode? h).symm
  · intro h
    rw [h, decode?_encode]

end ConfidentialPolicy.Text.Base64

import ConfidentialPolicy.Proofs.Fragment.Import
import ConfidentialPolicy.Proofs.Fields
import ConfidentialPolicy.Proofs.Json.Value

namespace ConfidentialPolicy

open Json

theorem Text.word?_eq_some_iff {m : Nat} {n : UInt64} : word? m = some n ↔ m = n.toNat := by
  have hn : n.toNat ≤ maxWord := Nat.le_sub_one_of_lt n.toNat_lt
  rw [word?]
  split
  · next hm =>
    have hlt : m < 2 ^ 64 := Nat.lt_of_le_sub_one (by decide) hm
    rw [Option.some.injEq, ← UInt64.toNat_inj, Nat.toUInt64, UInt64.toNat_ofNat_of_lt' hlt]
  · next hm =>
    constructor
    · rintro ⟨⟩
    · rintro rfl
      exact absurd hn hm

theorem Text.wordOfDigits?_eq_some_iff {ds : List Char} {n : UInt64} :
    wordOfDigits? ds = some n ↔ Denotes ds n.toNat := by
  rw [denotes_iff, wordOfDigits?]
  split
  · next hds => rw [word?_eq_some_iff, and_iff_right hds]
  · next hds =>
    constructor
    · intro h
      cases h
    · intro h
      exact absurd h.1 hds

theorem Text.wordOf?_eq_some_iff {s : List Char} {n : UInt64} :
    wordOf? s = some n ↔ Denotes s n.toNat ∨ ∃ ds, s = '+' :: ds ∧ Denotes ds n.toNat := by
  unfold wordOf?
  split
  · next ds =>
    have hplus : ¬ Denotes ('+' :: ds) n.toNat := fun h ↦
      absurd (h.isDigit_of_mem List.mem_cons_self) (by decide)
    simp [wordOfDigits?_eq_some_iff, hplus]
  · next hs =>
    have hplus : ¬ ∃ ds, s = '+' :: ds ∧ Denotes ds n.toNat := fun ⟨ds, h, _⟩ ↦ hs ds h
    rw [wordOfDigits?_eq_some_iff, or_iff_left hplus]

inductive SpellsVersion (n : UInt64) : Json → Prop
  | number : SpellsVersion n (.num (.int n.toNat))
  | digits {s : String} (h : Text.Denotes s.toList n.toNat) : SpellsVersion n (.str s)
  | plus {s : String} {ds : List Char} (hs : s.toList = '+' :: ds) (h : Text.Denotes ds n.toNat) :
    SpellsVersion n (.str s)

theorem FragmentImport.svn?_eq_some_iff {v : Json} {n : UInt64} :
    svn? v = some n ↔ SpellsVersion n v := by
  constructor
  · intro h
    cases v with
    | str s =>
      rcases Text.wordOf?_eq_some_iff.mp h with h | ⟨ds, hs, h⟩
      · exact .digits h
      · exact .plus hs h
    | num m =>
      cases m with
      | int k =>
        simp only [svn?, Json.word?] at h
        split at h
        · next hk =>
          obtain rfl : k = (n.toNat : Int) := by
            rw [← Text.word?_eq_some_iff.mp h, Int.toNat_of_nonneg hk]
          exact .number
        · cases h
      | float => cases h
    | null | bool | arr | obj => cases h
  · intro h
    cases h with
    | number => exact Text.word?_eq_some_iff.mpr rfl
    | digits h => exact Text.wordOf?_eq_some_iff.mpr (.inl h)
    | plus hs h => exact Text.wordOf?_eq_some_iff.mpr (.inr ⟨_, hs, h⟩)

/-- What the first member has whose key is a name in some letter case. -/
inductive Gives (name : String) : Members → Option Json → Prop
  | missing : Gives name [] none
  | here {k : String} {v : Json} {ms : Members} (h : Text.sameLetters k name = true) :
    Gives name ((k, v) :: ms) (some v)
  | later {k : String} {v : Json} {ms : Members} {x : Option Json}
    (h : Text.sameLetters k name = false) (hms : Gives name ms x) : Gives name ((k, v) :: ms) x

theorem Fields.find?_eq_iff {ms : Members} {name : String} {x : Option Json} :
    find? ⟨ms⟩ name = x ↔ Gives name ms x := by
  constructor
  · rintro rfl
    induction ms with
    | nil => exact .missing
    | cons m ms ih =>
      obtain ⟨k, v⟩ := m
      rw [find?_cons]
      split
      · next h => exact .here h
      · next h => exact .later (Bool.eq_false_iff.mpr h) ih
  · intro h
    induction h with
    | missing => rfl
    | here h => rw [find?_cons, if_pos h]
    | later h _ ih => rw [find?_cons, h, if_neg Bool.false_ne_true, ih]

theorem Json.strings?_eq_some_iff {v : Json} {ss : List String} :
    v.strings? = some ss ↔ v = .ofStrings ss := by
  constructor
  · intro h
    obtain ⟨vs, hvs, hss⟩ := Option.bind_eq_some_iff.mp h
    rw [items?_eq_some_iff.mp hvs, ofStrings,
      Checked.eq_map_of_mapM_option (fun _ _ ↦ str?_eq_some_iff.mp) hss]
  · rintro rfl
    exact strings?_ofStrings ss

/-- What may stand for the parts that an import is trusted for; where there are none it may be
nothing. -/
def SpellsIncludes (includes : List String) (x : Option Json) : Prop :=
  x = some (.ofStrings includes) ∨ x = none ∧ includes = []

namespace FragmentImport

/-- The ways in which an import may be written. -/
inductive Spells (i : FragmentImport) : Json → Prop
  | keyed {ms : Members} {version : Json} {includes : Option Json}
    (feed : Gives "feed" ms (some (.str i.feed))) (issuer : Gives "issuer" ms (some (.str i.issuer)))
    (minimumSvn : Gives "minimum_svn" ms (some version)) (parts : Gives "includes" ms includes)
    (hversion : SpellsVersion i.minimumSvn version) (hincludes : SpellsIncludes i.includes includes) :
    Spells i (.obj ms)
  | listed {version : Json} {includes : Option Json} (hversion : SpellsVersion i.minimumSvn version)
    (hincludes : SpellsIncludes i.includes includes) :
    Spells i (.arr ([.str i.feed, .str i.issuer, version] ++ includes.toList))

theorem ofRecord?_eq_some_iff {feed issuer version includes : Option Json} {i : FragmentImport} :
    ofRecord? [feed, issuer, version, includes] = some i ↔
      feed = some (.str i.feed) ∧ issuer = some (.str i.issuer) ∧
      (∃ v, version = some v ∧ SpellsVersion i.minimumSvn v) ∧ SpellsIncludes i.includes includes := by
  constructor
  · intro h
    obtain ⟨f, hf, h⟩ := Option.bind_eq_some_iff.mp h
    obtain ⟨s, hs, h⟩ := Option.bind_eq_some_iff.mp h
    obtain ⟨n, hn, h⟩ := Option.bind_eq_some_iff.mp h
    obtain ⟨ss, hss, h⟩ := Option.bind_eq_some_iff.mp h
    cases h
    obtain ⟨v, rfl, hf⟩ := Option.bind_eq_some_iff.mp hf
    obtain ⟨w, rfl, hs⟩ := Option.bind_eq_some_iff.mp hs
    obtain ⟨x, rfl, hn⟩ := Option.bind_eq_some_iff.mp hn
    rw [str?_eq_some_iff.mp hf, str?_eq_some_iff.mp hs]
    refine ⟨rfl, rfl, ⟨x, rfl, svn?_eq_some_iff.mp hn⟩, ?_⟩
    cases includes with
    | none =>
      cases hss
      exact .inr ⟨rfl, rfl⟩
    | some y =>
      rw [strings?_eq_some_iff.mp hss]
      exact .inl rfl
  · rintro ⟨rfl, rfl, ⟨v, rfl, hv⟩, rfl | ⟨rfl, hnone⟩⟩
    · simp [ofRecord?, Record.field?, Record.fieldOr?, str?, svn?_eq_some_iff.mpr hv, strings?_ofStrings]
    · simp [ofRecord?, Record.field?, Record.fieldOr?, str?, svn?_eq_some_iff.mpr hv, ← hnone]

theorem record?_obj (ms : Members) : record? (.obj ms) =
    some [Fields.find? ⟨ms⟩ "feed", Fields.find? ⟨ms⟩ "issuer", Fields.find? ⟨ms⟩ "minimum_svn",
      Fields.find? ⟨ms⟩ "includes"] := rfl

theorem eq_of_record?_arr {vs : List Json} {r : Record Json} (h : record? (.arr vs) = some r) :
    r = [vs[0]?, vs[1]?, vs[2]?, vs[3]?] ∧ vs.length ≤ 4 := by
  simp only [record?, Record.ofItems?] at h
  split at h
  · next hle =>
    cases h
    exact ⟨rfl, hle⟩
  · cases h

/-- A list of no more than four items, of which the first three are known. -/
theorem eq_append_toList {vs : List Json} {a b c : Json} (hle : vs.length ≤ 4)
    (ha : vs[0]? = some a) (hb : vs[1]? = some b) (hc : vs[2]? = some c) :
    vs = [a, b, c] ++ vs[3]?.toList := by
  rcases vs with _ | ⟨a', _ | ⟨b', _ | ⟨c', rest⟩⟩⟩
  · cases ha
  · cases hb
  · cases hc
  · cases ha
    cases hb
    cases hc
    rcases rest with _ | ⟨d, _ | ⟨e, rest⟩⟩
    · rfl
    · rfl
    · simp only [List.length_cons] at hle
      omega

theorem ofJson_eq_ok_iff_exists {v : Json} {i : FragmentImport} :
    ofJson v = .ok i ↔ ∃ r, record? v = some r ∧ ofRecord? r = some i := by
  rw [← Option.bind_eq_some_iff, ofJson]
  split
  · next j hj => rw [hj, Except.ok.injEq, Option.some.injEq]
  · next hnone =>
    rw [hnone]
    simp

/-- A value is read as an import just where it is a spelling of it. -/
theorem ofJson_eq_ok_iff {v : Json} {i : FragmentImport} : ofJson v = .ok i ↔ Spells i v := by
  rw [ofJson_eq_ok_iff_exists]
  constructor
  · rintro ⟨r, hr, hi⟩
    cases v with
    | obj ms =>
      rw [record?_obj] at hr
      cases hr
      obtain ⟨hfeed, hissuer, ⟨v, hv, hversion⟩, hincludes⟩ := ofRecord?_eq_some_iff.mp hi
      exact .keyed (Fields.find?_eq_iff.mp hfeed) (Fields.find?_eq_iff.mp hissuer)
        (Fields.find?_eq_iff.mp hv) (Fields.find?_eq_iff.mp rfl) hversion hincludes
    | arr vs =>
      obtain ⟨rfl, hle⟩ := eq_of_record?_arr hr
      obtain ⟨hfeed, hissuer, ⟨v, hv, hversion⟩, hincludes⟩ := ofRecord?_eq_some_iff.mp hi
      rw [eq_append_toList hle hfeed hissuer hv]
      exact .listed hversion hincludes
    | null | bool | num | str => cases hr
  · intro h
    cases h with
    | keyed feed issuer minimumSvn parts hversion hincludes =>
      refine ⟨_, record?_obj _, ofRecord?_eq_some_iff.mpr ⟨Fields.find?_eq_iff.mpr feed,
        Fields.find?_eq_iff.mpr issuer, ⟨_, Fields.find?_eq_iff.mpr minimumSvn, hversion⟩, ?_⟩⟩
      rw [Fields.find?_eq_iff.mpr parts]
      exact hincludes
    | @listed version includes hversion hincludes =>
      refine ⟨[some (.str i.feed), some (.str i.issuer), some version, includes], ?_,
        ofRecord?_eq_some_iff.mpr ⟨rfl, rfl, ⟨version, rfl, hversion⟩, hincludes⟩⟩
      cases includes <;> rfl

end FragmentImport

end ConfidentialPolicy

import ConfidentialPolicy.Input
import ConfidentialPolicy.Json.Reader
import ConfidentialPolicy.Proofs.Fields
import ConfidentialPolicy.Proofs.Json.Path

namespace ConfidentialPolicy

namespace Json

def asWritten? (text : String) : Option Json := (readWritten? text.toList).bind Written.value?

theorem exists_asWritten? {text : String} {v : Json} (h : parse? text = some v) :
    ∃ u, asWritten? text = some u ∧ u.canonicalize = v := by
  obtain ⟨ts, hts, h⟩ := Option.bind_eq_some_iff.mp h
  split at h
  · obtain ⟨w, hw, hv⟩ := Option.bind_eq_some_iff.mp h
    obtain ⟨u, hu, rfl⟩ := Option.map_eq_some_iff.mp hv
    refine ⟨u, ?_, rfl⟩
    rw [asWritten?, readWritten?, hts, Option.bind_some, hw, Option.bind_some, hu]
  · cases h

/-- No object on the way along a path has a key twice, nor has one at its end. -/
def KeysDistinct (v : Json) (path : List Step) : Prop :=
  ∀ way, way <+: path → ∀ ms, v.at? way = some (.obj ms) → (KeyMap.keys ms).Nodup

theorem KeysDistinct.head {v : Json} {path : List Step} (h : v.KeysDistinct path)
    {ms : Members} (hv : v = .obj ms) : (KeyMap.keys ms).Nodup :=
  h [] List.nil_prefix ms (congrArg some hv)

theorem KeysDistinct.tail {v x : Json} {s : Step} {path : List Step}
    (h : v.KeysDistinct (s :: path)) (hx : v.part? s = some x) : x.KeysDistinct path :=
  fun way hway ms hms ↦
    h (s :: way) ((List.prefix_cons_inj s).mpr hway) ms ((at?_cons_of_part? hx way).trans hms)

theorem at?_canonicalize {v : Json} {path : List Step} (h : v.KeysDistinct path) :
    v.canonicalize.at? path = (v.at? path).map canonicalize := by
  induction path generalizing v with
  | nil => rfl
  | cons s path ih =>
    rw [at?_cons, at?_cons, part?_canonicalize fun ms hms ↦ h.head hms]
    cases hx : v.part? s with
    | none => rfl
    | some x => exact ih (h.tail hx)

end Json

namespace Fields

open Json

variable {ms : Members} {key : String} {m n : String × Json}

/-- A member has the spelling of a key that comes first in code point order. -/
structure Leads (ms : Members) (key : String) (m : String × Json) : Prop where
  mem : m ∈ ms
  same : Text.sameLetters m.1 key = true
  le : ∀ n ∈ ms, Text.sameLetters n.1 key = true → m.1 ≤ n.1

def present (v : Json) : Option Json := (some v.canonicalize).filter (!·.isNull)

theorem present_eq_iff {v w : Json} : present v = present w ↔ v.canonicalize = w.canonicalize := by
  refine ⟨fun h ↦ ?_, fun h ↦ by rw [present, present, h]⟩
  have eq_null {x : Json} (hx : x.isNull = true) : x = .null := by
    cases x <;> first | rfl | cases hx
  simp only [present, Option.filter_some] at h
  cases hv : v.canonicalize.isNull <;> cases hw : w.canonicalize.isNull <;>
    simp only [hv, hw, Bool.not_true, Bool.not_false, if_true, Bool.false_eq_true, if_false] at h
  · exact Option.some.inj h
  · cases h
  · cases h
  · rw [eq_null hv, eq_null hw]

/-- How a field is read from an object whose members are written in a certain order. -/
inductive ReadAs (ms : Members) (f : Fields) (key : String) : Prop
  | missing (hno : ∀ m ∈ ms, Text.sameLetters m.1 key = false) (hget : f.get? key = none)
  /-- The spelling written first is the one that counts just where it has the same value. -/
  | spelled {first least : String × Json}
      (hfirst : ms.find? (fun m ↦ Text.sameLetters m.1 key) = some first)
      (hleast : Leads ms key least) (hget : f.get? key = present least.2)
      (hiff : f.get? key = present first.2 ↔ first.2.canonicalize = least.2.canonicalize)

def parsed (ms : Members) : Fields := ⟨KeyMap.ofList (canonicalizeMembers ms)⟩

theorem mem_members_parsed (h : (KeyMap.keys ms).Nodup) :
    m ∈ (parsed ms).members ↔ ∃ n ∈ ms, (n.1, n.2.canonicalize) = m := by
  rw [parsed, KeyMap.mem_ofList_of_nodup (by rwa [keys_canonicalizeMembers]),
    canonicalizeMembers_eq_map, List.mem_map]

theorem exists_leads (h : (KeyMap.keys ms).Nodup) {v : Json}
    (hv : (parsed ms).find? key = some v) :
    ∃ least, Leads ms key least ∧ least.2.canonicalize = v := by
  obtain ⟨k, hk, hsame, hle⟩ := (find?_eq_some_iff (KeyMap.sorted_ofList _)).mp hv
  obtain ⟨least, hmem, heq⟩ := (mem_members_parsed h).mp hk
  obtain ⟨rfl, rfl⟩ := Prod.mk.inj heq
  refine ⟨least, ⟨hmem, hsame, fun n hn hn' ↦ ?_⟩, rfl⟩
  exact hle (n.1, n.2.canonicalize) ((mem_members_parsed h).mpr ⟨n, hn, rfl⟩) hn'

theorem find?_parsed_eq_none (h : (KeyMap.keys ms).Nodup) (hv : (parsed ms).find? key = none) :
    ∀ m ∈ ms, Text.sameLetters m.1 key = false := by
  intro m hm
  rw [find?, Option.map_eq_none_iff, List.find?_eq_none] at hv
  have hmem : (m.1, m.2.canonicalize) ∈ (parsed ms).members :=
    (mem_members_parsed h).mpr ⟨m, hm, rfl⟩
  exact eq_false_of_ne_true (hv (m.1, m.2.canonicalize) hmem)

theorem readAs_parsed (h : (KeyMap.keys ms).Nodup) (key : String) :
    ReadAs ms (parsed ms) key := by
  cases hv : (parsed ms).find? key with
  | none => exact .missing (find?_parsed_eq_none h hv) (by rw [get?, hv, Option.filter_none])
  | some v =>
    obtain ⟨least, hleast, rfl⟩ := exists_leads h hv
    have hsome : (ms.find? fun m ↦ Text.sameLetters m.1 key).isSome = true :=
      List.find?_isSome.mpr ⟨least, hleast.mem, hleast.same⟩
    obtain ⟨first, hfirst⟩ := Option.isSome_iff_exists.mp hsome
    have hget : (parsed ms).get? key = present least.2 := by rw [get?, hv, present]
    exact .spelled hfirst hleast hget (by rw [hget, present_eq_iff, eq_comm])

end Fields

namespace PolicyInput

/-- The input of a text is read from its parsed value, and in an object of that value a field has
the spelling that is least, wherever that stands in the text. -/
theorem readAs_ofText {text : String} {v : Json} (h : Json.parse? text = some v) :
    ofText text = ofJson v ∧ ∃ u, Json.asWritten? text = some u ∧
      ∀ place ms, u.at? place = some (.obj ms) → u.KeysDistinct place →
        ∃ object f, v.at? place = some object ∧ (∀ path, Fields.ofJson object path = .ok f) ∧
          ∀ key, Fields.ReadAs ms f key := by
  refine ⟨by rw [ofText, h], ?_⟩
  obtain ⟨u, hu, rfl⟩ := Json.exists_asWritten? h
  refine ⟨u, hu, fun place ms hms hkeys ↦ ?_⟩
  refine ⟨.obj (Fields.parsed ms).members, Fields.parsed ms, ?_, fun path ↦ rfl, ?_⟩
  · rw [Json.at?_canonicalize hkeys, hms, Option.map_some, Json.canonicalize]
    rfl
  · exact Fields.readAs_parsed (hkeys place (List.prefix_refl place) ms hms)

def namedThrice : String :=
  "\x7b\"containers\":[\x7b\"name\":\"app\",\"NAME\":null,\"Name\":\"web\"\x7d]\x7d"

theorem readAs_namedThrice : ∃ v ms, Json.parse? namedThrice = some v ∧
    ms = [("name", .str "app"), ("NAME", .null), ("Name", .str "web")] ∧
    ofText namedThrice = ofJson v ∧ ∃ object f,
      v.at? [.key "containers", .index 0] = some object ∧
      (∀ path, Fields.ofJson object path = .ok f) ∧ ∀ key, Fields.ReadAs ms f key := by
  have hwritten : Json.asWritten? namedThrice = some (.obj [("containers", .arr [.obj
      [("name", .str "app"), ("NAME", .null), ("Name", .str "web")]])]) := by decide +kernel
  have hsome : (Json.parse? namedThrice).isSome = true := by decide +kernel
  obtain ⟨v, hv⟩ := Option.isSome_iff_exists.mp hsome
  obtain ⟨htext, u, hu, hread⟩ := readAs_ofText hv
  rw [hwritten] at hu
  cases hu
  refine ⟨v, _, hv, rfl, htext, hread [.key "containers", .index 0] _ rfl ?_⟩
  intro way hway ms hms
  simp only [List.prefix_cons_iff, List.prefix_nil] at hway
  obtain rfl | ⟨-, rfl, rfl | ⟨-, rfl, rfl⟩⟩ := hway <;> cases hms <;> decide +kernel

def hiddenContainers : String :=
  "\x7b\"containers\":[\x7b\"name\":\"app\",\"properties\":\x7b\"image\":\"app:1\"\x7d\x7d]," ++
    "\"Containers\":[]\x7d"

/-- The spelling that is written first has a container; the least one has none, and none is read. -/
theorem exists_hidden_spelling : ∃ ms v first,
    Json.asWritten? hiddenContainers = some (.obj ms) ∧ (KeyMap.keys ms).Nodup ∧
    ms.find? (fun m ↦ Text.sameLetters m.1 "containers") = some first ∧
    Json.parse? hiddenContainers = some v ∧
    (Fields.ofJson v "input").map (·.get? "containers") ≠ .ok (Fields.present first.2) ∧
    ofText hiddenContainers = .ok ⟨none, [], none⟩ := by
  let container : Json :=
    .obj [("name", .str "app"), ("properties", .obj [("image", .str "app:1")])]
  let first : String × Json := ("containers", .arr [container])
  let second : String × Json := ("Containers", .arr [])
  refine ⟨[first, second], .obj [second, first], first, ?_, ?_, ?_, ?_, ?_, ?_⟩ <;>
    decide +kernel

end PolicyInput

end ConfidentialPolicy

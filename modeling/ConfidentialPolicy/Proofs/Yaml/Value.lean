import ConfidentialPolicy.Proofs.Json.Lexing
import ConfidentialPolicy.Yaml.Node

namespace ConfidentialPolicy.Yaml

open Json Text

theorem natIn?_of_digits {ds : List Char} (hne : ds ≠ []) (hds : ∀ c ∈ ds, isDigit c = true) :
    natIn? 10 ds = some (natOf ds) := by
  let add (n : Nat) (c : Char) : Option Nat := do
    let d ← hexValue? c
    if d < 10 then some (10 * n + d) else none
  have hadd (n : Nat) (c : Char) (hc : isDigit c = true) :
      add n c = some (10 * n + digitValue c) := by
    simp [add, hexValue?, hc, digitValue_lt hc]
  have hfold (n : Nat) :
      ds.foldlM add n = some (ds.foldl (fun n c ↦ 10 * n + digitValue c) n) := by
    clear hne
    induction ds generalizing n with
    | nil => rfl
    | cons c ds ih =>
      obtain ⟨hc, hds⟩ := List.forall_mem_cons.mp hds
      rw [List.foldlM_cons, hadd n c hc, Option.bind_eq_bind, Option.bind_some, ih hds,
        List.foldl_cons]
  rw [natIn?, if_neg hne]
  exact hfold 0

theorem integer?_intText (n : Int) : integer? (intText n) = some (decide (n < 0), n.natAbs) := by
  have hzero := no_leading_zero n.natAbs
  have hread := natIn?_of_digits (Nat.toDigits_ne_nil (b := 10) (n := n.natAbs))
    fun _ ↦ isDigit_of_mem_toDigits
  rw [natOf_toDigits] at hread
  obtain ⟨c, cs, hds, hc, -⟩ := exists_toDigits_eq_cons n.natAbs
  rw [hds] at hzero hread
  have hsign : c ≠ '-' ∧ c ≠ '+' := by
    constructor <;> rintro rfl <;> simp [isDigit] at hc
  by_cases hfirst : c = '0'
  · -- Only zero starts with a zero, so neither a base nor a leading zero is read.
    subst hfirst
    obtain rfl : cs = [] := by simpa using hzero
    by_cases hn : n < 0 <;> simp [integer?, intText, hn, hds, hread, hasLeadingZero]
  · by_cases hn : n < 0 <;>
      simp [integer?, intText, hn, hds, hread, hasLeadingZero, hfirst, hsign]

theorem integerValue?_natAbs {n : Int} (h : (Number.int n).IsWord) :
    integerValue? (decide (n < 0)) n.natAbs = some (.num (.int n)) := by
  obtain ⟨hlow, hhigh⟩ := h
  simp only [minInt64] at hlow
  by_cases hn : n < 0
  · have hbound : n.natAbs ≤ Nat.pow 2 63 := by
      simp only [Nat.pow_eq]
      omega
    have hvalue : -(n.natAbs : Int) = n := by omega
    rw [integerValue?, if_neg (by simp [hn]), if_pos ⟨decide_eq_true hn, hbound⟩, ofInt, hvalue]
  · have hbound : n.natAbs ≤ maxWord := by omega
    have hvalue : (n.natAbs : Int) = n := by omega
    rw [integerValue?, if_pos ⟨by simp [hn], hbound⟩, ofNat, hvalue]

theorem resolve?_intText {n : Int} (h : (Number.int n).IsWord) :
    resolve? (intText n) = some (.num (.int n)) := by
  obtain ⟨c, cs, htext, hc, -⟩ := exists_intText_eq_cons n
  have hne (d : Char) (hd : isDigit d = false) (hminus : d ≠ '-') : c ≠ d := by
    rintro rfl
    simp [hd, hminus] at hc
  have hnull : isNullWord (intText n) = false := by
    simp [isNullWord, htext, hne '~' rfl (by decide), hne 'n' rfl (by decide),
      hne 'N' rfl (by decide)]
  have hbool : bool? (intText n) = none := by
    simp [bool?, htext, hne 't' rfl (by decide), hne 'T' rfl (by decide), hne 'f' rfl (by decide),
      hne 'F' rfl (by decide)]
  have hempty : intText n ≠ [] := by
    rw [htext]
    exact List.cons_ne_nil c cs
  simp [resolve?, hempty, hnull, hbool, integer?_intText, integerValue?_natAbs h]

mutual

/-- The node of the text that JSON has for a value. -/
def node : Json → Node
  | .null => .scalar ⟨['n', 'u', 'l', 'l'], true, none⟩
  | .bool true => .scalar ⟨['t', 'r', 'u', 'e'], true, none⟩
  | .bool false => .scalar ⟨['f', 'a', 'l', 's', 'e'], true, none⟩
  | .num n => .scalar ⟨numberText n, true, none⟩
  | .str s => .scalar ⟨s.toList, false, none⟩
  | .arr vs => .list (itemNodes vs)
  | .obj ms => .map (memberNodes ms)
termination_by structural v => v

def itemNodes : List Json → List Node
  | [] => []
  | v :: vs => node v :: itemNodes vs
termination_by structural vs => vs

def memberNodes : List (String × Json) → List (Node × Node)
  | [] => []
  | (k, v) :: ms => (.scalar ⟨k.toList, false, none⟩, node v) :: memberNodes ms
termination_by structural ms => ms

end

namespace Node

variable {t : Table} {room : Nat}

theorem mapM_itemNodes {vs : List Json} (h : ∀ v ∈ vs, value t room (node v) = pure v) :
    (itemNodes vs).mapM (value t room) = pure vs := by
  induction vs with
  | nil => rfl
  | cons v vs ih =>
    rw [itemNodes, List.mapM_cons, h v List.mem_cons_self, pure_bind,
      ih fun w hw ↦ h w (List.mem_cons_of_mem _ hw), pure_bind]

theorem mapM_memberNodes {ms : List (String × Json)}
    (h : ∀ m ∈ ms, value t room (node m.2) = pure m.2) :
    (memberNodes ms).mapM (fun m ↦ do pure (← key t m.1, ← value t room m.2)) = pure ms := by
  induction ms with
  | nil => rfl
  | cons m ms ih =>
    obtain ⟨k, v⟩ := m
    have hv : value t room (node v) = pure v := h (k, v) List.mem_cons_self
    have hk : key t (.scalar ⟨k.toList, false, none⟩) = pure k := by
      simp [key, follow, bare]
    rw [memberNodes, List.mapM_cons, hk, hv, ih fun n hn ↦ h n (List.mem_cons_of_mem _ hn)]
    simp only [pure_bind]

theorem value_scalar {s : Scalar} {v : Json} (h : s.value? = some v) :
    value t room (.scalar s) = pure v := by
  have hscalar : value t room (.scalar s) = scalarValue s := by
    cases room <;> rfl
  rw [hscalar, scalarValue, h]

theorem value_list (ns : List Node) :
    value t (room + 1) (.list ns) = ns.mapM (value t room) >>= fun vs ↦ pure (.arr vs) := rfl

theorem value_map (ns : List (Node × Node)) :
    value t (room + 1) (.map ns) =
      ns.mapM (fun m ↦ do pure (← key t m.1, ← value t room m.2)) >>= fun ms ↦ pure (.obj ms) :=
  rfl

/-- The node of a value has that value. -/
theorem value_node {v : Json} (hv : v.Integral) (hd : v.depth ≤ room) :
    value t room (node v) = pure v := by
  induction v generalizing room with
  | null => exact value_scalar rfl
  | bool b => cases b <;> exact value_scalar rfl
  | num n =>
    cases n with
    | float x => exact absurd (integral_num_iff.mp hv) id
    | int n => exact value_scalar (resolve?_intText (integral_num_iff.mp hv))
  | str s => exact value_scalar (by simp [Scalar.value?, Scalar.untagged?])
  | arr vs ih =>
    obtain ⟨room, rfl⟩ : ∃ k, room = k + 1 := Nat.exists_eq_add_of_le' (Nat.zero_lt_of_lt hd)
    have hvs (v : Json) (hm : v ∈ vs) : value t room (node v) = pure v :=
      ih v hm (integral_arr_iff.mp hv v hm)
        ((depth_le_itemsDepth hm).trans (Nat.le_of_succ_le_succ hd))
    rw [node, value_list, mapM_itemNodes hvs, pure_bind]
  | obj ms ih =>
    obtain ⟨room, rfl⟩ : ∃ k, room = k + 1 := Nat.exists_eq_add_of_le' (Nat.zero_lt_of_lt hd)
    have hms (m : String × Json) (hm : m ∈ ms) : value t room (node m.2) = pure m.2 :=
      ih m hm (integral_obj_iff.mp hv m hm)
        ((depth_le_membersDepth hm).trans (Nat.le_of_succ_le_succ hd))
    rw [node, value_map, mapM_memberNodes hms, pure_bind]

theorem json?_node {v : Json} (hv : v.Integral) (hd : v.depth ≤ maxDepth) :
    (node v).json? = some v := by
  rw [json?, value_node hv hd]
  rfl

end Node

end ConfidentialPolicy.Yaml

import ConfidentialPolicy.PolicyText.Lists
import ConfidentialPolicy.Proofs.Json.Reading
import ConfidentialPolicy.Proofs.Text.Search

namespace ConfidentialPolicy.PolicyText

open Json

/-- Inside of a list the scanner goes through the text and is at the same depth behind it. -/
def Passes (s : List Char) : Prop :=
  ∀ (depth read : Nat) (rest : List Char),
    closingLength? (.code (depth + 1)) read (s ++ rest) =
      closingLength? (.code (depth + 1)) (read + s.length) rest

def IsPlain (c : Char) : Prop := c ≠ '[' ∧ c ≠ ']' ∧ c ≠ '"'

instance (c : Char) : Decidable (IsPlain c) :=
  inferInstanceAs (Decidable (c ≠ '[' ∧ c ≠ ']' ∧ c ≠ '"'))

theorem closingLength?_cons_of_open {n : Nesting} {c : Char} (h : (n.step c).isClosed = false)
    (read : Nat) (s : List Char) :
    closingLength? n read (c :: s) = closingLength? (n.step c) (read + 1) s := by
  simp [closingLength?, h]

theorem passes_nil : Passes [] := fun _ _ _ ↦ rfl

theorem Passes.append {s t : List Char} (hs : Passes s) (ht : Passes t) : Passes (s ++ t) := by
  intro depth read rest
  rw [List.append_assoc, hs, ht, List.length_append, Nat.add_assoc]

theorem passes_singleton {c : Char} (h : IsPlain c) : Passes [c] := by
  intro depth read rest
  have hs : Nesting.step (.code (depth + 1)) c = .code (depth + 1) := by
    simp [Nesting.step, h.1, h.2.1, h.2.2]
  rw [List.singleton_append, closingLength?_cons_of_open (by rw [hs]; rfl), hs,
    List.length_singleton]

theorem Passes.cons {c : Char} {s : List Char} (hc : IsPlain c) (hs : Passes s) :
    Passes (c :: s) :=
  (passes_singleton hc).append hs

theorem passes_of_plain {s : List Char} (h : ∀ c ∈ s, IsPlain c) : Passes s := by
  induction s with
  | nil => exact passes_nil
  | cons c s ih =>
    exact (ih fun d hd ↦ h d (List.mem_cons_of_mem _ hd)).cons (h c List.mem_cons_self)

theorem passes_of_all {s : List Char} (h : s.all (fun c ↦ decide (IsPlain c)) = true) : Passes s :=
  passes_of_plain fun c hc ↦ of_decide_eq_true (List.all_eq_true.mp h c hc)

theorem Passes.bracketed {s : List Char} (h : Passes s) : Passes ('[' :: (s ++ [']'])) := by
  intro depth read rest
  have hopen : Nesting.step (.code (depth + 1)) '[' = .code (depth + 2) := rfl
  have hclose : Nesting.step (.code (depth + 2)) ']' = .code (depth + 1) := rfl
  rw [List.cons_append, List.append_assoc, closingLength?_cons_of_open (by rw [hopen]; rfl), hopen,
    h, List.singleton_append, closingLength?_cons_of_open (by rw [hclose]; rfl), hclose]
  congr 1
  simp
  omega

theorem closingLength?_literal_cons {c : Char} (hb : c ≠ '\\') (hq : c ≠ '"') (depth read : Nat)
    (s : List Char) :
    closingLength? (.literal depth) read (c :: s) =
      closingLength? (.literal depth) (read + 1) s := by
  have hs : Nesting.step (.literal depth) c = .literal depth := by simp [Nesting.step, hb, hq]
  rw [closingLength?_cons_of_open (by rw [hs]; rfl), hs]

theorem closingLength?_literal_escape (c : Char) (depth read : Nat) (s : List Char) :
    closingLength? (.literal depth) read ('\\' :: c :: s) =
      closingLength? (.literal depth) (read + 2) s := rfl

theorem hexDigit_inert {n : Nat} (h : n < 16) : hexDigit n ≠ '\\' ∧ hexDigit n ≠ '"' := by
  have hall : ∀ m < 16, hexDigit m ≠ '\\' ∧ hexDigit m ≠ '"' := by decide
  exact hall n h

theorem closingLength?_escape (c : Char) (depth read : Nat) (s : List Char) :
    closingLength? (.literal depth) read (escape c ++ s) =
      closingLength? (.literal depth) (read + (escape c).length) s := by
  unfold escape
  split_ifs with hq hb _ _ _ _ _ hcontrol
  · rfl
  · rfl
  · rfl
  · rfl
  · rfl
  · rfl
  · rfl
  · have hone := hexDigit_inert (n := c.toNat / 16) (by omega)
    have htwo := hexDigit_inert (n := c.toNat % 16) (by omega)
    simp only [List.cons_append, List.nil_append, closingLength?_literal_escape]
    rw [closingLength?_literal_cons (by decide) (by decide),
      closingLength?_literal_cons (by decide) (by decide),
      closingLength?_literal_cons hone.1 hone.2, closingLength?_literal_cons htwo.1 htwo.2]
    rfl
  · exact closingLength?_literal_cons hb hq depth read s

theorem closingLength?_flatMap_escape (cs : List Char) (depth read : Nat) (s : List Char) :
    closingLength? (.literal depth) read (cs.flatMap escape ++ s) =
      closingLength? (.literal depth) (read + (cs.flatMap escape).length) s := by
  induction cs generalizing read with
  | nil => rfl
  | cons c cs ih =>
    rw [List.flatMap_cons, List.append_assoc, closingLength?_escape, ih, List.length_append,
      Nat.add_assoc]

theorem passes_quoted (s : String) : Passes (quoted s) := by
  intro depth read rest
  have hopen : Nesting.step (.code (depth + 1)) '"' = .literal (depth + 1) := rfl
  have hclose : Nesting.step (.literal (depth + 1)) '"' = .code (depth + 1) := rfl
  rw [quoted, List.cons_append, List.append_assoc, closingLength?_cons_of_open (by rw [hopen]; rfl),
    hopen, closingLength?_flatMap_escape, List.singleton_append,
    closingLength?_cons_of_open (by rw [hclose]; rfl), hclose]
  congr 1
  simp
  omega

theorem passes_gap (style : Style) (depth : Nat) : Passes (style.gap depth) := by
  refine passes_of_plain fun c hc ↦ ?_
  cases style with
  | compact => simp [Style.gap] at hc
  | pretty =>
    rcases List.mem_cons.mp hc with rfl | hc
    · decide
    · rw [List.eq_of_mem_replicate hc]
      decide

theorem passes_colon (style : Style) : Passes style.colon :=
  passes_of_all (by cases style <;> rfl)

theorem isPlain_of_isDigit {c : Char} (h : Text.isDigit c = true) : IsPlain c := by
  refine ⟨?_, ?_, ?_⟩ <;> rintro rfl <;> simp [Text.isDigit] at h

theorem passes_numberText {n : Number} (h : n.IsWord) : Passes (numberText n) := by
  cases n with
  | float x => exact absurd h id
  | int n =>
    obtain ⟨c, cs, htext, hc, hcs⟩ := exists_intText_eq_cons n
    have hplain : IsPlain c := by
      rcases hc with hc | rfl
      · exact isPlain_of_isDigit hc
      · decide
    rw [numberText, htext]
    exact (passes_of_plain fun d hd ↦ isPlain_of_isDigit (hcs d hd)).cons hplain

theorem passes_writeItems {vs : List Json} {style : Style} {depth : Nat}
    (hvs : ∀ v ∈ vs, Passes (write style depth v)) : Passes (writeItems style depth vs) := by
  induction vs with
  | nil => exact passes_nil
  | cons v vs ih =>
    have hrest := ih fun w hw ↦ hvs w (List.mem_cons_of_mem _ hw)
    have hv := (hvs v List.mem_cons_self).append hrest
    exact ((passes_gap style depth).append hv).cons (by decide)

theorem passes_member {style : Style} {depth : Nat} {k : String} {v : Json} {s : List Char}
    (hv : Passes (write style depth v)) (hs : Passes s) :
    Passes (style.gap depth ++ (quoted k ++ (style.colon ++ (write style depth v ++ s)))) :=
  (passes_gap style depth).append
    ((passes_quoted k).append ((passes_colon style).append (hv.append hs)))

theorem passes_writeMembers {ms : List (String × Json)} {style : Style} {depth : Nat}
    (hms : ∀ m ∈ ms, Passes (write style depth m.2)) : Passes (writeMembers style depth ms) := by
  induction ms with
  | nil => exact passes_nil
  | cons m ms ih =>
    have hrest := ih fun w hw ↦ hms w (List.mem_cons_of_mem _ hw)
    exact (passes_member (hms m List.mem_cons_self) hrest).cons (by decide)

def inside (style : Style) (depth : Nat) : List Json → List Char
  | [] => []
  | v :: vs => style.gap (depth + 1) ++ (write style (depth + 1) v ++
      (writeItems style (depth + 1) vs ++ style.gap depth))

theorem write_arr (style : Style) (depth : Nat) (vs : List Json) :
    write style depth (.arr vs) = '[' :: (inside style depth vs ++ [']']) := by
  cases vs with
  | nil => rfl
  | cons v vs => simp only [write, inside, List.append_assoc]

theorem passes_inside {vs : List Json} {style : Style} {depth : Nat}
    (hvs : ∀ v ∈ vs, Passes (write style (depth + 1) v)) : Passes (inside style depth vs) := by
  cases vs with
  | nil => exact passes_nil
  | cons v vs =>
    have hrest := passes_writeItems fun w hw ↦ hvs w (List.mem_cons_of_mem _ hw)
    exact (passes_gap style (depth + 1)).append
      ((hvs v List.mem_cons_self).append (hrest.append (passes_gap style depth)))

theorem passes_write {v : Json} (hv : v.Integral) (style : Style) (depth : Nat) :
    Passes (write style depth v) := by
  induction v generalizing depth with
  | null => exact passes_of_all rfl
  | bool b => exact passes_of_all (by cases b <;> rfl)
  | num n => exact passes_numberText (integral_num_iff.mp hv)
  | str s => exact passes_quoted s
  | arr vs ih =>
    rw [write_arr]
    exact (passes_inside fun v hm ↦ ih v hm (integral_arr_iff.mp hv v hm) (depth + 1)).bracketed
  | obj ms ih =>
    cases ms with
    | nil => exact passes_of_all rfl
    | cons m ms =>
      have hms (n : String × Json) (hn : n ∈ m :: ms) : Passes (write style (depth + 1) n.2) :=
        ih n hn (integral_obj_iff.mp hv n hn) (depth + 1)
      have hrest := passes_writeMembers fun n hn ↦ hms n (List.mem_cons_of_mem _ hn)
      have hend : Passes (style.gap depth ++ ['}']) :=
        (passes_gap style depth).append (passes_singleton (by decide))
      exact (passes_member (hms m List.mem_cons_self) (hrest.append hend)).cons (by decide)

theorem balancedList_write {vs : List Json} (hvs : (Json.arr vs).Integral) (style : Style)
    (depth : Nat) (marker : String) (rest : List Char) :
    balancedList marker (write style depth (.arr vs) ++ rest) =
      .ok (write style depth (.arr vs)) := by
  have hinside : Passes (inside style depth vs) :=
    passes_inside fun v hv ↦ passes_write (integral_arr_iff.mp hvs v hv) style (depth + 1)
  have hclose (read : Nat) : closingLength? (.code 1) read (']' :: rest) = some (read + 1) := rfl
  have hlength : closingLength? (.code 1) 1 (inside style depth vs ++ ']' :: rest) =
      some ((inside style depth vs).length + 2) := by
    rw [hinside 0, hclose]
    congr 1
    omega
  have hblank : Text.isBlank '[' = false := rfl
  rw [write_arr, List.cons_append, List.append_assoc, List.singleton_append, balancedList,
    Text.trimStart_cons_of_not_blank hblank]
  simp [hlength, List.take_length_add_append]

theorem parseList_write {vs : List Json} (hi : (Json.arr vs).Integral)
    (hc : (Json.arr vs).Canonical) (hd : (Json.arr vs).depth ≤ maxDepth) (style : Style)
    (depth : Nat) : parseList (write style depth (.arr vs)) = .ok vs := by
  have hread : jsonItems? (write style depth (.arr vs)) = some vs := by
    rw [jsonItems?, parse?_write_of_integral hi hd, canonicalize_eq_self hc]
    rfl
  simp only [parseList, hread]

end ConfidentialPolicy.PolicyText

import ConfidentialPolicy.Json.Printer
import ConfidentialPolicy.Json.Token
import ConfidentialPolicy.Proofs.Json.Value
import ConfidentialPolicy.Proofs.Text.Digits
import Mathlib.Data.List.TakeWhile

namespace ConfidentialPolicy

/-- The text of a number is read as a number, maybe as another one. -/
def Number.ReadsAs (n m : Number) : Prop :=
  Json.Lexer.number? (Json.numberText n) = some (.num (some m))

instance (n m : Number) : Decidable (n.ReadsAs m) := inferInstanceAs (Decidable (_ = _))

namespace Json

open Text Lexer

def ReadsAs (f : Number → Number) : Json → Prop :=
  Every fun v ↦ match v with
    | .num n => n.ReadsAs (f n)
    | _ => True

variable {f : Number → Number}

@[simp]
theorem readsAs_arr_iff {vs : List Json} : ReadsAs f (.arr vs) ↔ ∀ v ∈ vs, ReadsAs f v := by
  simp only [ReadsAs, every_arr_iff, true_and]

theorem readsAs_obj_iff {ms : List (String × Json)} :
    ReadsAs f (.obj ms) ↔ ∀ m ∈ ms, ReadsAs f m.2 := by
  simp only [ReadsAs, every_obj_iff, true_and]

@[simp]
theorem readsAs_num_iff {n : Number} : ReadsAs f (.num n) ↔ n.ReadsAs (f n) := by
  simp [ReadsAs, every_iff (v := .num n), parts]

@[simp]
theorem readsAs_str (s : String) : ReadsAs f (.str s) := ⟨trivial, by simp [parts]⟩

mutual

def tokens : Json → List Token
  | .null => [.null]
  | .bool b => [.bool b]
  | .num n => [.num (some n)]
  | .str s => [.str (some s)]
  | .arr [] => [.openList, .closeList]
  | .arr (v :: vs) => .openList :: (tokens v ++ (itemTokens vs ++ [.closeList]))
  | .obj [] => [.openObject, .closeObject]
  | .obj ((k, v) :: ms) =>
    .openObject :: .str (some k) :: .colon :: (tokens v ++ (memberTokens ms ++ [.closeObject]))
termination_by structural v => v

def itemTokens : List Json → List Token
  | [] => []
  | v :: vs => .comma :: (tokens v ++ itemTokens vs)
termination_by structural vs => vs

def memberTokens : List (String × Json) → List Token
  | [] => []
  | (k, v) :: ms => .comma :: .str (some k) :: .colon :: (tokens v ++ memberTokens ms)
termination_by structural ms => ms

end

/-- A text that gives these tokens wherever a token may start. -/
def Lexes (s : List Char) (ts : List Token) : Prop :=
  ∀ done, (Lexer.run ⟨.between, done⟩ s).bind finish? = some (done.reverse ++ ts)

def Delimited : List Char → Prop
  | [] => True
  | c :: _ => isNumeral c = false ∧ isLetter c = false

theorem run_cons (l : Lexer) (c : Char) (s : List Char) :
    l.run (c :: s) = (l.step c).bind (·.run s) := by
  simp only [run, List.foldlM_cons]
  rfl

theorem lexes_nil : Lexes [] [] := fun done ↦ by simp [run, finish?]

theorem Lexes.token {c : Char} {t : Token} {s : List Char} {ts : List Token}
    (hc : ∀ done, begin? done c = some ⟨.between, t :: done⟩) (h : Lexes s ts) :
    Lexes (c :: s) (t :: ts) := by
  intro done
  rw [run_cons, show step ⟨.between, done⟩ c = _ from hc done, Option.bind_some, h]
  simp

theorem Lexes.blank {c : Char} {s : List Char} {ts : List Token} (hc : isGap c = true)
    (h : Lexes s ts) : Lexes (c :: s) ts := by
  intro done
  have hb : step ⟨.between, done⟩ c = some ⟨.between, done⟩ := by
    simp only [step, begin?, if_pos hc]
  rw [run_cons, hb, Option.bind_some, h]

theorem Lexes.replicate_blank {s : List Char} {ts : List Token} (n : Nat) (h : Lexes s ts) :
    Lexes (List.replicate n ' ' ++ s) ts := by
  induction n with
  | zero => exact h
  | succ n ih => exact ih.blank rfl

theorem Lexes.gap {s : List Char} {ts : List Token} (style : Style) (depth : Nat)
    (h : Lexes s ts) : Lexes (style.gap depth ++ s) ts := by
  cases style with
  | compact => exact h
  | pretty => exact (h.replicate_blank _).blank rfl

theorem Lexes.colon {s : List Char} {ts : List Token} (style : Style) (h : Lexes s ts) :
    Lexes (style.colon ++ s) (.colon :: ts) := by
  cases style with
  | compact => exact h.token fun _ ↦ rfl
  | pretty => exact (h.blank rfl).token fun _ ↦ rfl

theorem hexValue?_hexDigit {n : Nat} (h : n < 16) : hexValue? (hexDigit n) = some n := by
  have hall : ∀ m < 16, hexValue? (hexDigit m) = some m := by decide
  exact hall n h

theorem endHex_of_lt {n : Nat} (h : n < 0x20) (acc : List Char) :
    endHex (some acc) none n = .text (some (Char.ofNat n :: acc)) := by
  have hl : isLow n = false := by simp [isLow]; omega
  have hh : isHigh n = false := by simp [isHigh]; omega
  simp [endHex, hl, hh, push]

/-- A control character is written with its two hexadecimal digits. -/
theorem run_unicode {c : Char} (h : c.toNat < 0x20) (acc : List Char) (done : List Token)
    (s : List Char) :
    run ⟨.text (some acc), done⟩
      ('\\' :: 'u' :: '0' :: '0' :: hexDigit (c.toNat / 16) :: hexDigit (c.toNat % 16) :: s) =
    run ⟨.text (some (c :: acc)), done⟩ s := by
  have hone := hexValue?_hexDigit (n := c.toNat / 16) (by omega)
  have htwo := hexValue?_hexDigit (n := c.toNat % 16) (by omega)
  have hzero : hexValue? '0' = some 0 := rfl
  have hvalue : 16 * (c.toNat / 16) + c.toNat % 16 = c.toNat := by omega
  have hstart : run ⟨.text (some acc), done⟩ ('\\' :: 'u' :: '0' :: '0' ::
      hexDigit (c.toNat / 16) :: hexDigit (c.toNat % 16) :: s) =
      run ⟨.hex (some acc) none 4 0, done⟩ ('0' :: '0' ::
        hexDigit (c.toNat / 16) :: hexDigit (c.toNat % 16) :: s) := rfl
  rw [hstart]
  simp only [run_cons, step, hone, htwo, hzero, Option.bind_eq_bind, Option.bind_some,
    Option.pure_def]
  simp [hvalue, endHex_of_lt h]

theorem run_escape (c : Char) (acc : List Char) (done : List Token) (s : List Char) :
    run ⟨.text (some acc), done⟩ (escape c ++ s) = run ⟨.text (some (c :: acc)), done⟩ s := by
  unfold escape
  split_ifs with hq hb hbs ht hn hf hr hcontrol
  · subst hq; rfl
  · subst hb; rfl
  · subst hbs; rfl
  · subst ht; rfl
  · subst hn; rfl
  · subst hf; rfl
  · subst hr; rfl
  · exact run_unicode hcontrol acc done s
  · have hs : step ⟨.text (some acc), done⟩ c = some ⟨.text (some (c :: acc)), done⟩ := by
      simp only [step, inText, if_neg hq, if_neg hb, if_neg hcontrol, push, Option.map_some]
    rw [List.singleton_append, run_cons, hs, Option.bind_some]

theorem run_flatMap_escape (cs acc : List Char) (done : List Token) (s : List Char) :
    run ⟨.text (some acc), done⟩ (cs.flatMap escape ++ s) =
      run ⟨.text (some (cs.reverse ++ acc)), done⟩ s := by
  induction cs generalizing acc with
  | nil => rfl
  | cons c cs ih =>
    rw [List.flatMap_cons, List.append_assoc, run_escape, ih]
    simp

theorem Lexes.quoted {s : List Char} {ts : List Token} (text : String) (h : Lexes s ts) :
    Lexes (quoted text ++ s) (.str (some text) :: ts) := by
  intro done
  have hopen : run ⟨.between, done⟩ (Json.quoted text ++ s) =
      run ⟨.text (some []), done⟩ (text.toList.flatMap escape ++ '"' :: s) := by
    simp only [Json.quoted, List.cons_append, List.append_assoc, List.nil_append]
    rfl
  have hclose : step ⟨.text (some text.toList.reverse), done⟩ '"' =
      some ⟨.between, .str (some text) :: done⟩ := by
    simp [step, inText]
  rw [hopen, run_flatMap_escape, List.append_nil, run_cons, hclose, Option.bind_some, h]
  simp

theorem run_numeral_end {done : List Char} {t : Token} {s : List Char} (tokens : List Token)
    (ht : number? done.reverse = some t) (hs : Delimited s) :
    (run ⟨.number done, tokens⟩ s).bind finish? = (run ⟨.between, t :: tokens⟩ s).bind finish? := by
  cases s with
  | nil => simp [run, finish?, ht]
  | cons c s => simp [run_cons, step, hs.1, ht]

theorem run_word_end {done : List Char} {t : Token} {s : List Char} (tokens : List Token)
    (ht : Lexer.word? done.reverse = some t) (hs : Delimited s) :
    (run ⟨.word done, tokens⟩ s).bind finish? = (run ⟨.between, t :: tokens⟩ s).bind finish? := by
  cases s with
  | nil => simp [run, finish?, ht]
  | cons c s => simp [run_cons, step, hs.2, ht]

theorem isNumeral_of_isDigit {c : Char} (h : isDigit c = true) : isNumeral c = true := by
  simp [isNumeral, h]

theorem run_numeral {cs : List Char} (h : ∀ c ∈ cs, isNumeral c = true) (done : List Char)
    (tokens : List Token) (s : List Char) :
    run ⟨.number done, tokens⟩ (cs ++ s) = run ⟨.number (cs.reverse ++ done), tokens⟩ s := by
  induction cs generalizing done with
  | nil => rfl
  | cons c cs ih =>
    have hc : step ⟨.number done, tokens⟩ c = some ⟨.number (c :: done), tokens⟩ := by
      simp only [step, if_pos (h c List.mem_cons_self)]
    rw [List.cons_append, run_cons, hc, Option.bind_some,
      ih fun d hd ↦ h d (List.mem_cons_of_mem _ hd)]
    simp

theorem isNumeral_of_dropWhile {s : List Char}
    (h : ∀ d ∈ s.dropWhile isDigit, isNumeral d = true) : ∀ d ∈ s, isNumeral d = true := by
  intro d hd
  rw [← List.takeWhile_append_dropWhile (p := isDigit) (l := s)] at hd
  rcases List.mem_append.mp hd with hd | hd
  · exact isNumeral_of_isDigit (List.mem_takeWhile_imp hd)
  · exact h d hd

theorem isNumeral_of_exponentOf? {s : List Char} {e : Option (Bool × List Char)}
    (h : Numeral.exponentOf? s = some e) : ∀ d ∈ s, isNumeral d = true := by
  unfold Numeral.exponentOf? at h
  split at h
  · simp
  · next c s =>
    split at h
    · next hc =>
      have hmark : isNumeral c = true := by rcases hc with rfl | rfl <;> rfl
      refine List.forall_mem_cons.mpr ⟨hmark, ?_⟩
      split at h
      next negative digits hsign =>
      split at h
      · next hdigits =>
        have hall : ∀ d ∈ digits, isNumeral d = true :=
          fun d hd ↦ isNumeral_of_isDigit (List.all_eq_true.mp hdigits.2 d hd)
        split at hsign <;> cases hsign
        · exact List.forall_mem_cons.mpr ⟨rfl, hall⟩
        · exact List.forall_mem_cons.mpr ⟨rfl, hall⟩
        · exact hall
      · cases h
    · cases h

theorem isNumeral_of_fractionOf? {s rest : List Char} {f : Option (List Char)}
    (h : Numeral.fractionOf? s = some (f, rest)) (hrest : ∀ d ∈ rest, isNumeral d = true) :
    ∀ d ∈ s, isNumeral d = true := by
  unfold Numeral.fractionOf? at h
  split at h
  · next s =>
    dsimp only at h
    split at h
    · cases h
    · cases h
      exact List.forall_mem_cons.mpr ⟨rfl, isNumeral_of_dropWhile hrest⟩
  · cases h
    exact hrest

theorem exists_body_of_ofChars? {s : List Char} {n : Numeral} (h : Numeral.ofChars? s = some n) :
    ∃ body, (s = '-' :: body ∨ s = body) ∧ body.takeWhile isDigit ≠ [] ∧
      ∀ d ∈ body, isNumeral d = true := by
  unfold Numeral.ofChars? at h
  split at h
  next negative body hsign =>
  have hs : s = '-' :: body ∨ s = body := by
    split at hsign <;> cases hsign
    · exact .inl rfl
    · exact .inr rfl
  refine ⟨body, hs, ?_⟩
  dsimp only at h
  split at h
  · cases h
  · next hwhole =>
    obtain ⟨⟨f, rest⟩, hf, h⟩ := Option.bind_eq_some_iff.mp h
    obtain ⟨e, he, -⟩ := Option.bind_eq_some_iff.mp h
    exact ⟨fun hnil ↦ hwhole (.inl hnil),
      isNumeral_of_dropWhile (isNumeral_of_fractionOf? hf (isNumeral_of_exponentOf? he))⟩

/-- What is read as a number starts with a digit or a minus sign and holds nothing but the
characters of numerals. -/
theorem exists_eq_cons_of_number? {s : List Char} {t : Token} (h : number? s = some t) :
    ∃ c cs, s = c :: cs ∧ (isDigit c ∨ c = '-') ∧ ∀ d ∈ cs, isNumeral d = true := by
  obtain ⟨n, hn, -⟩ := Option.map_eq_some_iff.mp h
  obtain ⟨body, rfl | rfl, hwhole, hall⟩ := exists_body_of_ofChars? hn
  · exact ⟨'-', body, rfl, .inr rfl, hall⟩
  · cases s with
    | nil => exact absurd rfl hwhole
    | cons c cs =>
      have hc : isDigit c = true := by
        by_contra hc
        exact hwhole (List.takeWhile_cons_of_neg hc)
      exact ⟨c, cs, rfl, .inl hc, (List.forall_mem_cons.mp hall).2⟩

theorem exists_toDigits_eq_cons (n : Nat) :
    ∃ c cs, Nat.toDigits 10 n = c :: cs ∧ isDigit c = true ∧ ∀ d ∈ cs, isDigit d = true := by
  cases h : Nat.toDigits 10 n with
  | nil => exact absurd h Nat.toDigits_ne_nil
  | cons c cs =>
    have hd (d : Char) (hd : d ∈ c :: cs) : isDigit d = true := isDigit_of_mem_toDigits (h ▸ hd)
    exact ⟨c, cs, rfl, hd c List.mem_cons_self, fun d hc ↦ hd d (List.mem_cons_of_mem _ hc)⟩

theorem no_leading_zero (n : Nat) :
    ¬ ((Nat.toDigits 10 n).head? = some '0' ∧ Nat.toDigits 10 n ≠ ['0']) := by
  rintro ⟨hhead, hne⟩
  rcases Nat.eq_zero_or_pos n with rfl | hn
  · exact hne (Nat.toDigits_zero 10)
  · exact head?_toDigits_ne_zero hn hhead

theorem ofChars?_intText (n : Int) :
    Numeral.ofChars? (intText n) = some ⟨n < 0, Nat.toDigits 10 n.natAbs, none, none⟩ := by
  have hzero := no_leading_zero n.natAbs
  by_cases hn : n < 0
  · simp [Numeral.ofChars?, intText, hn, takeWhile_toDigits, dropWhile_toDigits, hzero,
      Numeral.fractionOf?, Numeral.exponentOf?]
  · obtain ⟨c, cs, hds, hc, -⟩ := exists_toDigits_eq_cons n.natAbs
    have hminus (t : List Char) (ht : Nat.toDigits 10 n.natAbs = '-' :: t) : False := by
      rw [hds] at ht
      simp [(List.cons.inj ht).1, isDigit] at hc
    simp [Numeral.ofChars?, intText, hn, takeWhile_toDigits, dropWhile_toDigits, hzero,
      Numeral.fractionOf?, Numeral.exponentOf?]

theorem toNumber?_intText {n : Int} (h : (Number.int n).IsWord) :
    Numeral.toNumber? ⟨n < 0, Nat.toDigits 10 n.natAbs, none, none⟩ = some (.int n) := by
  obtain ⟨hlow, hhigh⟩ := h
  simp only [minInt64] at hlow
  by_cases hn : n < 0
  · have hbound : 0 < n.natAbs ∧ n.natAbs ≤ Nat.pow 2 63 := by
      simp only [Nat.pow_eq]
      omega
    have hvalue : -(n.natAbs : Int) = n := by omega
    simp only [Numeral.toNumber?, natOf_toDigits, hn, hbound, hvalue, decide_true, Bool.not_true,
      and_self, Bool.false_eq_true, false_and, and_false, if_false, if_true]
  · have hbound : n.natAbs ≤ maxWord := by omega
    have hvalue : (n.natAbs : Int) = n := by omega
    simp only [Numeral.toNumber?, natOf_toDigits, hn, hbound, hvalue, decide_false, Bool.not_false,
      and_self, if_true]

theorem readsAs_of_isWord {n : Number} (h : n.IsWord) : n.ReadsAs n := by
  cases n with
  | float x => exact absurd h id
  | int n =>
    simp only [Number.ReadsAs, numberText, number?, ofChars?_intText, Option.map_some,
      toNumber?_intText h]

theorem Integral.readsAs {v : Json} (h : v.Integral) : v.ReadsAs id := by
  refine Every.imp (fun v hv ↦ ?_) h
  cases v with
  | num n => exact readsAs_of_isWord hv
  | null | bool | str | arr | obj => trivial

/-- A numeral is a digit or a minus sign, and then digits. -/
theorem exists_intText_eq_cons (n : Int) :
    ∃ c cs, intText n = c :: cs ∧ (isDigit c ∨ c = '-') ∧ ∀ d ∈ cs, isDigit d = true := by
  obtain ⟨c, cs, hds, hc, hcs⟩ := exists_toDigits_eq_cons n.natAbs
  by_cases hn : n < 0
  · exact ⟨'-', Nat.toDigits 10 n.natAbs, by simp only [intText, if_pos hn], .inr rfl,
      fun _ ↦ isDigit_of_mem_toDigits⟩
  · exact ⟨c, cs, by simp only [intText, if_neg hn, hds], .inl hc, hcs⟩

theorem begin?_numeral {c : Char} (h : isDigit c ∨ c = '-') (done : List Token) :
    begin? done c = some ⟨.number [c], done⟩ := by
  have hne (d : Char) (hd : isDigit d = false) (hm : d ≠ '-') : c ≠ d := by
    rintro rfl
    rcases h with h | h
    · simp [hd] at h
    · exact hm h
  have hgap : isGap c = false := by
    simp [isGap, hne ' ' rfl (by decide), hne '\n' rfl (by decide), hne '\t' rfl (by decide),
      hne '\r' rfl (by decide)]
  simp only [begin?, hgap, Bool.false_eq_true, if_false, if_neg (hne '[' rfl (by decide)),
    if_neg (hne ']' rfl (by decide)), if_neg (hne '{' rfl (by decide)),
    if_neg (hne '}' rfl (by decide)), if_neg (hne ',' rfl (by decide)),
    if_neg (hne ':' rfl (by decide)), if_neg (hne '"' rfl (by decide)), if_pos h]

theorem Lexes.number {n m : Number} (hn : n.ReadsAs m) {s : List Char} {ts : List Token}
    (hs : Delimited s) (h : Lexes s ts) : Lexes (numberText n ++ s) (.num (some m) :: ts) := by
  intro done
  obtain ⟨c, cs, htext, hc, hcs⟩ := exists_eq_cons_of_number? hn
  have hstart : step ⟨.between, done⟩ c = some ⟨.number [c], done⟩ := begin?_numeral hc done
  have hnumber : number? (cs.reverse ++ [c]).reverse = some (.num (some m)) := by
    rw [List.reverse_append, List.reverse_reverse, List.reverse_singleton, List.singleton_append,
      ← htext]
    exact hn
  rw [htext, List.cons_append, run_cons, hstart, Option.bind_some, run_numeral hcs,
    run_numeral_end done hnumber hs, h]
  simp

theorem Lexes.word {w : List Char} {t : Token} (ht : Lexer.word? w = some t)
    (hw : ∀ done s, run ⟨.between, done⟩ (w ++ s) = run ⟨.word w.reverse, done⟩ s)
    {s : List Char} {ts : List Token} (hs : Delimited s) (h : Lexes s ts) :
    Lexes (w ++ s) (t :: ts) := by
  intro done
  rw [hw, run_word_end done (by rwa [List.reverse_reverse]) hs, h]
  simp

theorem delimited_gap (style : Style) (depth : Nat) {s : List Char} (h : Delimited s) :
    Delimited (style.gap depth ++ s) := by
  cases style with
  | compact => exact h
  | pretty => exact ⟨rfl, rfl⟩

theorem delimited_writeItems (style : Style) (depth : Nat) (vs : List Json) {s : List Char}
    (h : Delimited s) : Delimited (writeItems style depth vs ++ s) := by
  cases vs with
  | nil => exact h
  | cons v vs => exact ⟨rfl, rfl⟩

theorem delimited_writeMembers (style : Style) (depth : Nat) (ms : List (String × Json))
    {s : List Char} (h : Delimited s) : Delimited (writeMembers style depth ms ++ s) := by
  cases ms with
  | nil => exact h
  | cons m ms => exact ⟨rfl, rfl⟩

/-- What the lexer makes of a value with whatever follows it: each number is what its text is read
as. -/
def LexesInFull (f : Number → Number) (v : Json) : Prop :=
  ∀ (style : Style) (depth : Nat) (s : List Char) (ts : List Token),
    Delimited s → Lexes s ts → Lexes (write style depth v ++ s) (tokens (v.mapNumbers f) ++ ts)

theorem lexes_writeItems {vs : List Json} (hvs : ∀ v ∈ vs, LexesInFull f v) (style : Style)
    (depth : Nat) {s : List Char} {ts : List Token} (hs : Delimited s) (h : Lexes s ts) :
    Lexes (writeItems style depth vs ++ s) (itemTokens (vs.map (mapNumbers f)) ++ ts) := by
  induction vs with
  | nil => exact h
  | cons v vs ih =>
    have hrest := ih fun w hw ↦ hvs w (List.mem_cons_of_mem _ hw)
    have hdelimited := delimited_writeItems style depth vs hs
    have hv := hvs v List.mem_cons_self style depth _ _ hdelimited hrest
    simpa only [writeItems, List.map_cons, itemTokens, List.cons_append, List.append_assoc] using
      (hv.gap style depth).token (fun _ ↦ rfl)

theorem lexes_writeMembers {ms : List (String × Json)} (hms : ∀ m ∈ ms, LexesInFull f m.2)
    (style : Style) (depth : Nat) {s : List Char} {ts : List Token} (hs : Delimited s)
    (h : Lexes s ts) : Lexes (writeMembers style depth ms ++ s)
      (memberTokens (ms.map fun m ↦ (m.1, m.2.mapNumbers f)) ++ ts) := by
  induction ms with
  | nil => exact h
  | cons m ms ih =>
    have hrest := ih fun w hw ↦ hms w (List.mem_cons_of_mem _ hw)
    have hv := hms m List.mem_cons_self style depth _ _
      (delimited_writeMembers style depth ms hs) hrest
    simpa only [writeMembers, List.map_cons, memberTokens, List.cons_append, List.append_assoc]
      using (((hv.colon style).quoted m.1).gap style depth).token (fun _ ↦ rfl)

theorem lexes_write {v : Json} (hv : v.ReadsAs f) : LexesInFull f v := by
  -- A number ends where something else follows it, so a value is lexed together with what stands
  -- behind it.
  induction v with
  | null => exact fun _ _ _ _ hs h ↦ h.word rfl (fun _ _ ↦ rfl) hs
  | bool b =>
    cases b with
    | true => exact fun _ _ _ _ hs h ↦ h.word rfl (fun _ _ ↦ rfl) hs
    | false => exact fun _ _ _ _ hs h ↦ h.word rfl (fun _ _ ↦ rfl) hs
  | num n => exact fun _ _ _ _ hs h ↦ h.number (readsAs_num_iff.mp hv) hs
  | str text => exact fun _ _ _ _ _ h ↦ h.quoted text
  | arr vs ih =>
    intro style depth s ts hs h
    rw [mapNumbers_arr]
    have hvs (v : Json) (hm : v ∈ vs) : LexesInFull f v := ih v hm (readsAs_arr_iff.mp hv v hm)
    have hclose : Lexes (']' :: s) (.closeList :: ts) := h.token fun _ ↦ rfl
    cases vs with
    | nil => exact hclose.token fun _ ↦ rfl
    | cons v vs =>
      have hend : Delimited (style.gap depth ++ ']' :: s) := delimited_gap style depth ⟨rfl, rfl⟩
      have hitems := lexes_writeItems (fun w hw ↦ hvs w (List.mem_cons_of_mem _ hw)) style
        (depth + 1) hend (hclose.gap style depth)
      have hfirst := hvs v List.mem_cons_self style (depth + 1) _ _
        (delimited_writeItems style (depth + 1) vs hend) hitems
      simpa only [write, List.map_cons, tokens, List.cons_append, List.append_assoc,
        List.nil_append] using (hfirst.gap style (depth + 1)).token (fun _ ↦ rfl)
  | obj ms ih =>
    intro style depth s ts hs h
    rw [mapNumbers_obj]
    have hms (m : String × Json) (hm : m ∈ ms) : LexesInFull f m.2 :=
      ih m hm (readsAs_obj_iff.mp hv m hm)
    have hclose : Lexes ('}' :: s) (.closeObject :: ts) := h.token fun _ ↦ rfl
    cases ms with
    | nil => exact hclose.token fun _ ↦ rfl
    | cons m ms =>
      have hend : Delimited (style.gap depth ++ '}' :: s) := delimited_gap style depth ⟨rfl, rfl⟩
      have hmembers := lexes_writeMembers (fun w hw ↦ hms w (List.mem_cons_of_mem _ hw)) style
        (depth + 1) hend (hclose.gap style depth)
      have hfirst := hms m List.mem_cons_self style (depth + 1) _ _
        (delimited_writeMembers style (depth + 1) ms hend) hmembers
      simpa only [write, List.map_cons, tokens, List.cons_append, List.append_assoc,
        List.nil_append] using
        (((hfirst.colon style).quoted m.1).gap style (depth + 1)).token (fun _ ↦ rfl)

theorem tokens?_write {v : Json} (hv : v.ReadsAs f) (style : Style) (depth : Nat) :
    tokens? (write style depth v) = some (tokens (v.mapNumbers f)) := by
  have h := lexes_write hv style depth [] [] trivial lexes_nil []
  simpa [tokens?, Lexer.start] using h

end Json

end ConfidentialPolicy

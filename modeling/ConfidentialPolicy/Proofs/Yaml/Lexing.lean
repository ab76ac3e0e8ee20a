import ConfidentialPolicy.Json.Printer
import ConfidentialPolicy.Yaml.Token
import Mathlib.Data.List.TakeDrop

namespace ConfidentialPolicy.Yaml

open Lexer

def IsOrdinary (c : Char) : Prop := c = '\n' ∨ (0x20 ≤ c.toNat ∧ c.toNat ≤ 0x7E)

instance (c : Char) : Decidable (IsOrdinary c) := inferInstanceAs (Decidable (_ ∨ _))

/-- White space, and then a comma, a bracket or the end of the text. -/
def Delimited : List Char → Prop
  | [] => True
  | c :: s => isBracket c = true ∨ (isSpace c = true ∧ Delimited s)

/-- A text that gives these tokens wherever a token may start; if `entry` holds, wherever an entry
may start. -/
structure Lexes (entry : Bool) (s : List Char) (ts : List Token) : Prop where
  ordinary : ∀ c ∈ s, IsOrdinary c
  unmarked : marksDocument s = false
  unmarkedStart : hasDocumentMark s = false
  run : ∀ l : Lexer, l.mode = .between → (entry = true → l.atEntry = true) →
    (run? none l s).bind finish? = some (l.tokens.reverse ++ ts)

theorem run?_cons (l : Lexer) (c : Char) (s : List Char) :
    run? none l (c :: s) = (l.step? c s.head?).bind (run? none · s) := by
  rw [run?, Option.or_none]
  cases l.step? c s.head? <;> rfl

theorem step?_between {l : Lexer} (hl : l.mode = .between) (c : Char) (next : Option Char) :
    l.step? c next = (l.begin? c next).map (·.advance c) := by
  rw [step?, act?, hl]

theorem isPrintable_of_isOrdinary {c : Char} (h : IsOrdinary c) : isPrintable c = true := by
  rcases h with rfl | ⟨hlow, hhigh⟩
  · rfl
  · simp [isPrintable, hlow, hhigh]

theorem normalizeBreaks_eq_self {s : List Char} (h : ∀ c ∈ s, IsOrdinary c) :
    normalizeBreaks s = s := by
  induction s with
  | nil => rfl
  | cons c s ih =>
    obtain ⟨hc, hs⟩ := List.forall_mem_cons.mp h
    have hne : c ≠ '\r' ∧ c ≠ '\u0085' := by
      constructor <;> rintro rfl <;> revert hc <;> decide
    rw [normalizeBreaks]
    · rw [ih hs, if_neg (by simp [hne.1, hne.2])]
    · rintro t rfl -
      exact hne.1 rfl

theorem tokens?_of_lexes {s : List Char} {ts : List Token} (h : Lexes false s ts) :
    tokens? s = some ts := by
  have hall : s.all isPrintable = true :=
    List.all_eq_true.mpr fun c hc ↦ isPrintable_of_isOrdinary (h.ordinary c hc)
  have hrun := h.run {} rfl nofun
  simp only [tokens?, normalizeBreaks_eq_self h.ordinary, hall, h.unmarked, Bool.not_false,
    and_self, if_true]
  exact hrun

theorem lexes_nil : Lexes false [] [] :=
  ⟨List.forall_mem_nil _, rfl, rfl, fun l hl _ ↦ by simp [run?, finish?, hl]⟩

variable {entry : Bool} {c : Char} {t : Token} {s : List Char} {ts : List Token}

theorem marksDocument_cons (hc : isBreak c = false) (s : List Char) :
    marksDocument (c :: s) = marksDocument s := by
  simp [marksDocument, hc]

inductive Sign : Char → Token → Prop
  | openList : Sign '[' .openList
  | closeList : Sign ']' .closeList
  | openMap : Sign '{' .openMap
  | closeMap : Sign '}' .closeMap
  | comma : Sign ',' .comma

theorem Sign.isBracket (h : Sign c t) : isBracket c = true := by
  cases h <;> rfl

theorem Sign.begin? (h : Sign c t) (l : Lexer) (next : Option Char) :
    l.begin? c next = some (l.emit t) := by
  cases h <;> rfl

def Token.startsEntry : Token → Bool
  | .openList | .openMap | .comma => true
  | _ => false

theorem Lexes.sign (hc : Sign c t) (ht : entry = true → t.startsEntry = true)
    (h : Lexes entry s ts) (before : Bool) : Lexes before (c :: s) (t :: ts) where
  ordinary := List.forall_mem_cons.mpr ⟨by cases hc <;> decide, h.ordinary⟩
  unmarked := by
    rw [marksDocument_cons (by cases hc <;> rfl), h.unmarked]
  unmarkedStart := by cases hc <;> rfl
  run l hl _ := by
    have hentry : ((l.emit t).advance c).atEntry = t.startsEntry := by cases hc <;> rfl
    rw [run?_cons, step?_between hl, hc.begin?, Option.map_some, Option.bind_some,
      h.run _ rfl fun he ↦ hentry.trans (ht he)]
    simp [advance, emit]

theorem Lexes.space (h : Lexes entry s ts) : Lexes entry (' ' :: s) ts where
  ordinary := List.forall_mem_cons.mpr ⟨by decide, h.ordinary⟩
  unmarked := by rw [marksDocument_cons rfl, h.unmarked]
  unmarkedStart := rfl
  run l hl he := by
    rw [run?_cons, step?_between hl]
    exact h.run (l.advance ' ') hl he

theorem Lexes.break (h : Lexes entry s ts) : Lexes entry ('\n' :: s) ts where
  ordinary := List.forall_mem_cons.mpr ⟨by decide, h.ordinary⟩
  unmarked := by simp [marksDocument, h.unmarked, h.unmarkedStart]
  unmarkedStart := rfl
  run l hl he := by
    rw [run?_cons, step?_between hl]
    exact h.run (l.advance '\n') hl he

def isWordChar (c : Char) : Bool := Text.isDigit c || ('a' ≤ c && c ≤ 'z') || c = '-'

/-- A text of such characters; a minus sign comes before a digit. -/
structure IsWord (s : List Char) : Prop where
  chars : ∀ c ∈ s, isWordChar c = true
  start : ∃ c t, s = c :: t ∧ (c = '-' → ∃ d u, t = d :: u ∧ Text.isDigit d = true)

theorem isOrdinary_of_isWordChar (hc : isWordChar c = true) : IsOrdinary c := by
  simp only [isWordChar, Text.isDigit, Bool.or_eq_true, Bool.and_eq_true, decide_eq_true_eq,
    Char.le_def, UInt32.le_iff_toNat_le] at hc
  rcases hc with (hc | hc) | rfl
  · exact .inr ⟨Nat.le_trans (by decide) hc.1, Nat.le_trans hc.2 (by decide)⟩
  · exact .inr ⟨Nat.le_trans (by decide) hc.1, Nat.le_trans hc.2 (by decide)⟩
  · decide

theorem ne_of_isWordChar {d : Char} (hc : isWordChar c = true) (hd : isWordChar d = false) :
    c ≠ d := by
  rintro rfl
  simp [hc] at hd

theorem isSpace_of_isWordChar (hc : isWordChar c = true) : isSpace c = false := by
  simp [isSpace, isBlank, isBreak, ne_of_isWordChar hc (d := ' ') rfl,
    ne_of_isWordChar hc (d := '\t') rfl, ne_of_isWordChar hc (d := '\n') rfl,
    ne_of_isWordChar hc (d := '\u2028') rfl, ne_of_isWordChar hc (d := '\u2029') rfl]

theorem isBracket_of_isWordChar (hc : isWordChar c = true) : isBracket c = false := by
  simp [isBracket, ne_of_isWordChar hc (d := ',') rfl, ne_of_isWordChar hc (d := '[') rfl,
    ne_of_isWordChar hc (d := ']') rfl, ne_of_isWordChar hc (d := '{') rfl,
    ne_of_isWordChar hc (d := '}') rfl]

theorem isReserved_of_isWordChar (hc : isWordChar c = true) : isReserved c = false := by
  simp [isReserved, ne_of_isWordChar hc (d := '|') rfl, ne_of_isWordChar hc (d := '>') rfl,
    ne_of_isWordChar hc (d := '%') rfl, ne_of_isWordChar hc (d := '@') rfl,
    ne_of_isWordChar hc (d := '\x60') rfl]

theorem act?_plain {l : Lexer} {done : List Char} (hl : l.mode = .plain done {})
    (hc : isWordChar c = true) (next : Option Char) :
    l.act? c next = some { l with mode := .plain (c :: done) {} } := by
  have hspace : isBlank c = false ∧ isBreak c = false := by
    simpa [isSpace] using isSpace_of_isWordChar hc
  simp only [act?, hl, hspace.1, hspace.2, isBracket_of_isWordChar hc,
    ne_of_isWordChar hc (d := ':') rfl, ne_of_isWordChar hc (d := '#') rfl, Bool.false_eq_true,
    false_and, or_self, if_false]
  rfl

theorem exists_run?_plain {w : List Char} (hw : ∀ c ∈ w, isWordChar c = true) {l : Lexer}
    {done : List Char} (hl : l.mode = .plain done {}) (s : List Char) :
    ∃ l' : Lexer, run? none l (w ++ s) = run? none l' s ∧
      l'.mode = .plain (w.reverse ++ done) {} ∧ l'.tokens = l.tokens := by
  induction w generalizing l done with
  | nil => exact ⟨l, rfl, hl, rfl⟩
  | cons c w ih =>
    obtain ⟨hc, htail⟩ := List.forall_mem_cons.mp hw
    obtain ⟨l', hrun, hmode, htokens⟩ :=
      ih htail (l := ({ l with mode := .plain (c :: done) {} } : Lexer).advance c) rfl
    refine ⟨l', ?_, ?_, htokens⟩
    · rw [List.cons_append, run?_cons, step?, act?_plain hl hc, Option.map_some, Option.bind_some,
        hrun]
    · simpa using hmode

/-- A plain scalar ends before a comma or bracket; white space before that is left out. -/
theorem run?_plain_end (hs : Delimited s) {l : Lexer} {done : List Char} {fold : Fold}
    (hl : l.mode = .plain done fold) : (run? none l s).bind finish? =
      (run? none (l.emit (.plain done.reverse)) s).bind finish? := by
  induction s generalizing l fold with
  | nil => simp [run?, finish?, hl, emit]
  | cons c s ih =>
    have hbetween : (l.emit (.plain done.reverse)).act? c s.head? =
        (l.emit (.plain done.reverse)).begin? c s.head? := rfl
    rw [run?_cons, run?_cons, step?, step?, hbetween]
    rcases hs with hc | ⟨hc, hs⟩
    · have hspace : isBlank c = false ∧ isBreak c = false ∧ c ≠ ':' := by
        simp only [isBracket, Bool.or_eq_true, decide_eq_true_eq] at hc
        rcases hc with (((rfl | rfl) | rfl) | rfl) | rfl <;> decide
      simp [act?, hl, hspace, hc]
    · have hbegin : (l.emit (.plain done.reverse)).begin? c s.head? =
          some (l.emit (.plain done.reverse)) := by
        simp [Lexer.begin?, hc]
      rw [hbegin]
      cases hblank : isBlank c with
      | true =>
        simp only [act?, hl, hblank]
        exact ih hs rfl
      | false =>
        have hbreak : isBreak c = true := by simpa [isSpace, hblank] using hc
        simp only [act?, hl, hblank, hbreak]
        exact ih hs rfl

theorem marksDocument_append {w : List Char} (hw : ∀ c ∈ w, isBreak c = false) (s : List Char) :
    marksDocument (w ++ s) = marksDocument s := by
  induction w with
  | nil => rfl
  | cons c w ih =>
    obtain ⟨hc, hw⟩ := List.forall_mem_cons.mp hw
    rw [List.cons_append, marksDocument_cons hc, ih hw]

theorem hasDocumentMark_cons (hc : c ≠ '-') (hd : c ≠ '.') (s : List Char) :
    hasDocumentMark (c :: s) = false := by
  unfold hasDocumentMark
  split
  · next h => exact absurd (List.cons.inj h).1 hc
  · next h => exact absurd (List.cons.inj h).1 hd
  · rfl

theorem IsWord.not_hasDocumentMark {w : List Char} (hw : IsWord w) (s : List Char) :
    hasDocumentMark (w ++ s) = false := by
  obtain ⟨c, t, rfl, hdigit⟩ := hw.start
  by_cases hc : c = '-'
  · obtain ⟨d, u, rfl, hd⟩ := hdigit hc
    subst hc
    unfold hasDocumentMark
    split
    · next h =>
      injection h with _ h
      injection h with h _
      simp [h, Text.isDigit] at hd
    · next h => simp at h
    · rfl
  · exact hasDocumentMark_cons hc (ne_of_isWordChar (hw.chars c List.mem_cons_self) rfl) _

theorem begin?_word {t : List Char} (hw : IsWord (c :: t)) (l : Lexer) (s : List Char) :
    l.begin? c (t ++ s).head? = some (l.beginPart (.plain [c] {})) := by
  have hc : isWordChar c = true := hw.chars c List.mem_cons_self
  have hdash : c = '-' → endsWord (t ++ s).head? = false := by
    intro hdash
    obtain ⟨_, _, heq, hdigit⟩ := hw.start
    obtain ⟨rfl, rfl⟩ := List.cons.inj heq
    obtain ⟨d, u, rfl, hd⟩ := hdigit hdash
    have hspace : isSpace d = false := isSpace_of_isWordChar (by simp [isWordChar, hd])
    simp [endsWord, hspace]
  have hne {d : Char} (hd : isWordChar d = false) : c ≠ d := ne_of_isWordChar hc hd
  simpa [Lexer.begin?, isSpace_of_isWordChar hc, isReserved_of_isWordChar hc,
    hne (d := byteOrderMark) rfl, hne (d := '#') rfl, hne (d := '[') rfl, hne (d := ']') rfl,
    hne (d := '{') rfl, hne (d := '}') rfl, hne (d := ',') rfl, hne (d := ':') rfl,
    hne (d := '?') rfl, hne (d := '&') rfl, hne (d := '*') rfl, hne (d := '!') rfl,
    hne (d := '"') rfl, hne (d := '\'') rfl] using hdash

theorem Lexes.word {w : List Char} (hw : IsWord w) (hs : Delimited s) (h : Lexes false s ts) :
    Lexes entry (w ++ s) (.plain w :: ts) where
  ordinary c hc := by
    rcases List.mem_append.mp hc with hc | hc
    · exact isOrdinary_of_isWordChar (hw.chars c hc)
    · exact h.ordinary c hc
  unmarked := by
    have hbreak : ∀ c ∈ w, isBreak c = false := fun c hc ↦
      (Bool.or_eq_false_iff.mp (isSpace_of_isWordChar (hw.chars c hc))).2
    rw [marksDocument_append hbreak, h.unmarked]
  unmarkedStart := hw.not_hasDocumentMark s
  run l hl _ := by
    obtain ⟨c, t, rfl, -⟩ := hw.start
    obtain ⟨l', hrun, hmode, htokens⟩ := exists_run?_plain
      (fun d hd ↦ hw.chars d (List.mem_cons_of_mem c hd))
      (l := (l.beginPart (.plain [c] {})).advance c) (by unfold beginPart; split <;> rfl) s
    have hbegun : ((l.beginPart (.plain [c] {})).advance c).tokens = l.tokens := by
      unfold beginPart
      split <;> rfl
    rw [List.cons_append, run?_cons, step?_between hl, begin?_word hw, Option.map_some,
      Option.bind_some, hrun, run?_plain_end hs hmode, h.run _ rfl nofun]
    simp [emit, htokens, hbegun]

def isLiteral (c : Char) : Bool := ' ' ≤ c && c ≤ '~' && c ≠ '"' && c ≠ '\\'

theorem isOrdinary_of_isLiteral (hc : isLiteral c = true) : IsOrdinary c := by
  simp only [isLiteral, Bool.and_eq_true, decide_eq_true_eq, Char.le_def,
    UInt32.le_iff_toNat_le] at hc
  exact .inr hc.1.1

theorem ne_of_isLiteral {d : Char} (hc : isLiteral c = true) (hd : isLiteral d = false) :
    c ≠ d := by
  rintro rfl
  simp [hc] at hd

theorem isBreak_of_isLiteral (hc : isLiteral c = true) : isBreak c = false := by
  simp [isBreak, ne_of_isLiteral hc (d := '\n') rfl, ne_of_isLiteral hc (d := '\u2028') rfl,
    ne_of_isLiteral hc (d := '\u2029') rfl]

/-- Inside of quotes characters add up; blanks are held back until the next other character. -/
theorem exists_run?_double {k : List Char} (hk : ∀ c ∈ k, isLiteral c = true) (l : Lexer)
    (done blanks : List Char) (s : List Char) : ∃ done' blanks' : List Char,
      run? none { l with mode := .double done { blanks }, atLineStart := false } (k ++ s) =
        run? none { l with
          mode := .double done' { blanks := blanks' }
          index := l.index + k.length
          atLineStart := false } s ∧
      blanks' ++ done' = k.reverse ++ (blanks ++ done) := by
  induction k generalizing l done blanks with
  | nil => exact ⟨done, blanks, rfl, rfl⟩
  | cons c k ih =>
    obtain ⟨hc, htail⟩ := List.forall_mem_cons.mp hk
    have hquote : c ≠ '"' := ne_of_isLiteral hc rfl
    have hescape : c ≠ '\\' := ne_of_isLiteral hc rfl
    have hbreak : isBreak c = false := isBreak_of_isLiteral hc
    have hindex : l.index + (c :: k).length = l.index + 1 + k.length := by
      rw [List.length_cons]
      omega
    -- A blank waits for what follows; any other character takes the blanks that wait with it.
    cases hblank : isBlank c with
    | true =>
      obtain ⟨done', blanks', hrun, hjoin⟩ := ih htail { l with index := l.index + 1 } done
        (c :: blanks)
      refine ⟨done', blanks', ?_, by simpa using hjoin⟩
      rw [hindex, List.cons_append, run?_cons, ← hrun]
      simp [step?, act?, hquote, hescape, hbreak, hblank, advance, Fold.addBlank]
    | false =>
      obtain ⟨done', blanks', hrun, hjoin⟩ := ih htail { l with index := l.index + 1 }
        (c :: (blanks ++ done)) []
      refine ⟨done', blanks', ?_, by simpa using hjoin⟩
      rw [hindex, List.cons_append, run?_cons, ← hrun]
      simp [step?, act?, hquote, hescape, hbreak, hblank, advance, join, Fold.text]

/-- Where an entry starts, no part of a node has been read. -/
theorem exists_of_atEntry {l : Lexer} (h : l.atEntry = true) :
    l.afterProperty = false ∧ ∃ t before, l.tokens = t :: before ∧ isPart t = false := by
  unfold atEntry at h
  unfold afterProperty
  split at h
  · next before heq => exact ⟨by rw [heq], .openList, before, heq, rfl⟩
  · next before heq => exact ⟨by rw [heq], .openMap, before, heq, rfl⟩
  · next before heq => exact ⟨by rw [heq], .comma, before, heq, rfl⟩
  · cases h

/-- The mark of a node is where the node begins, unless an anchor or a tag came before. -/
theorem exists_beginPart (l : Lexer) : ∃ (mark : Nat × Nat) (leads : Bool),
    (∀ mode, l.beginPart mode = { l with mode, mark, leads }) ∧
      (l.atEntry = true → mark = (l.line, l.index) ∧ leads = true) := by
  cases h : l.afterProperty with
  | true =>
    refine ⟨l.mark, l.leads, fun mode ↦ by simp [beginPart, h], fun hentry ↦ ?_⟩
    simp [(exists_of_atEntry hentry).1] at h
  | false =>
    exact ⟨(l.line, l.index), l.atEntry, fun mode ↦ by simp [beginPart, h], fun h ↦ ⟨rfl, h⟩⟩

/-- A quoted scalar is one token. At the start of an entry it can be the key of a colon. -/
theorem exists_run?_quoted {k : List Char} (hk : ∀ c ∈ k, isLiteral c = true) {l : Lexer}
    (hl : l.mode = .between) (s : List Char) : ∃ l' : Lexer,
      run? none l ('"' :: (k ++ '"' :: s)) = run? none l' s ∧ l'.mode = .between ∧
      l'.tokens = .quoted k :: l.tokens ∧
      (l.atEntry = true → k.length + 2 ≤ maxKeyLength → l'.keyComplete = true) := by
  obtain ⟨mark, leads, hpart, hmark⟩ := exists_beginPart l
  have hopen : l.begin? '"' (k ++ '"' :: s).head? =
      some { l with mode := .double [] {}, mark, leads } :=
    congrArg some (hpart (.double [] {}))
  obtain ⟨done, blanks, hrun, hjoin⟩ := exists_run?_double hk
    { l with index := l.index + 1, mark, leads } [] [] ('"' :: s)
  have hscalar : (join done { blanks }).reverse = k := by
    simpa [join, Fold.text] using congrArg List.reverse hjoin
  have hstart : run? none l ('"' :: (k ++ '"' :: s)) = run? none
      { l with mode := .double [] {}, index := l.index + 1, atLineStart := false, mark, leads }
      (k ++ '"' :: s) := by
    rw [run?_cons, step?_between hl, hopen]
    rfl
  refine ⟨{ l with
    tokens := .quoted k :: l.tokens
    index := l.index + k.length + 2
    atLineStart := false
    mark
    leads }, ?_, hl, rfl, fun hentry hlength ↦ ?_⟩
  · rw [hstart, hrun, run?_cons, step?, act?]
    simp [hscalar, emit, advance, isBreak, Nat.add_right_comm, hl]
  · obtain ⟨rfl, rfl⟩ := hmark hentry
    simp only [keyComplete, beq_self_eq_true, Bool.and_self, Bool.true_and, decide_eq_true_eq]
    omega

theorem colon_of_keyComplete {l : Lexer} {k : List Char} {before : List Token}
    (hl : l.tokens = .quoted k :: t :: before) (ht : isPart t = false)
    (hkey : l.keyComplete = true) :
    l.colon = { l with tokens := .colon :: .quoted k :: .key :: t :: before } := by
  have hspan : l.tokens.span isPart = ([.quoted k], t :: before) := by
    have hk : isPart (.quoted k) = true := rfl
    simp [hl, List.span_eq_takeWhile_dropWhile, hk, ht]
  simp only [colon, hspan]
  simp [hkey]

theorem isOrdinary_of_mem_quoted {k : List Char} (hk : ∀ c ∈ k, isLiteral c = true)
    (hs : ∀ c ∈ s, IsOrdinary c) : ∀ c ∈ '"' :: (k ++ '"' :: s), IsOrdinary c := by
  refine List.forall_mem_cons.mpr ⟨by decide, fun c hc ↦ ?_⟩
  rcases List.mem_append.mp hc with hc | hc
  · exact isOrdinary_of_isLiteral (hk c hc)
  · exact List.forall_mem_cons.mpr ⟨by decide, hs⟩ c hc

theorem marksDocument_quoted {k : List Char} (hk : ∀ c ∈ k, isLiteral c = true) (s : List Char) :
    marksDocument ('"' :: (k ++ '"' :: s)) = marksDocument s := by
  rw [marksDocument_cons rfl, marksDocument_append fun c hc ↦ isBreak_of_isLiteral (hk c hc),
    marksDocument_cons rfl]

theorem Lexes.quoted {k : List Char} (hk : ∀ c ∈ k, isLiteral c = true) (h : Lexes false s ts) :
    Lexes entry ('"' :: (k ++ '"' :: s)) (.quoted k :: ts) where
  ordinary := isOrdinary_of_mem_quoted hk h.ordinary
  unmarked := (marksDocument_quoted hk s).trans h.unmarked
  unmarkedStart := rfl
  run l hl _ := by
    obtain ⟨l', hrun, hmode, htokens, -⟩ := exists_run?_quoted hk hl s
    rw [hrun, h.run l' hmode nofun]
    simp [htokens]

/-- A quoted scalar at the start of an entry is the key of a colon right behind it. -/
theorem Lexes.key {k : List Char} (hk : ∀ c ∈ k, isLiteral c = true)
    (hlength : k.length + 2 ≤ maxKeyLength) (h : Lexes false s ts) :
    Lexes true ('"' :: (k ++ '"' :: ':' :: s)) (.key :: .quoted k :: .colon :: ts) where
  ordinary := isOrdinary_of_mem_quoted hk (List.forall_mem_cons.mpr ⟨by decide, h.ordinary⟩)
  unmarked := by rw [marksDocument_quoted hk, marksDocument_cons rfl, h.unmarked]
  unmarkedStart := rfl
  run l hl he := by
    obtain ⟨l', hrun, hmode, htokens, hkey⟩ := exists_run?_quoted hk hl (':' :: s)
    -- The sign before the entry bounds what the colon turns into a key.
    obtain ⟨-, t, before, hbefore, ht⟩ := exists_of_atEntry (he rfl)
    rw [hbefore] at htokens
    have hcolon := colon_of_keyComplete htokens ht (hkey (he rfl) hlength)
    have hstep : l'.step? ':' s.head? = some (l'.colon.advance ':') := by
      rw [step?_between hmode]
      rfl
    have hnext : (l'.colon.advance ':').mode = .between := by
      rw [hcolon]
      exact hmode
    rw [hrun, run?_cons, hstep, Option.bind_some, h.run _ hnext nofun]
    simp [advance, hcolon, hbefore]

end ConfidentialPolicy.Yaml

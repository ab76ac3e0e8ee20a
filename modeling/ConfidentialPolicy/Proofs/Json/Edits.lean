import ConfidentialPolicy.Proofs.Json.Reading
import Mathlib.Computability.Language

namespace ConfidentialPolicy.Json

/-- A line break and the spaces before a part that is `depth` levels deep; each space may have
become a tab. -/
def indentations (depth : Nat) : Language Char := {['\n']} * ({[' ']} + {['\t']}) ^ (2 * depth)

/-- The end of a list or object that is `depth` levels deep; a comma may have been added before. -/
def endings (depth : Nat) (bracket : Char) : Language Char :=
  (1 + {[',']}) * indentations depth * {[bracket]}

def keyText (k : String) : List Char := quoted k ++ Style.pretty.colon

mutual

/-- What the indented text of a value that stands `depth` levels deep may become by editing. -/
def edits (depth : Nat) : Json → Language Char
  | .null => {write .pretty depth .null}
  | .bool b => {write .pretty depth (.bool b)}
  | .num n => {write .pretty depth (.num n)}
  | .str s => {write .pretty depth (.str s)}
  | .arr [] => {['[']} * {[']']}
  | .arr (v :: vs) => {['[']} * indentations (depth + 1) * edits (depth + 1) v *
      itemEdits (depth + 1) vs * endings depth ']'
  | .obj [] => {['{']} * {['}']}
  | .obj ((k, v) :: ms) => {['{']} * indentations (depth + 1) * {keyText k} *
      edits (depth + 1) v * memberEdits (depth + 1) ms * endings depth '}'
termination_by structural v => v

def itemEdits (depth : Nat) : List Json → Language Char
  | [] => 1
  | v :: vs => {[',']} * indentations depth * edits depth v * itemEdits depth vs
termination_by structural vs => vs

def memberEdits (depth : Nat) : List (String × Json) → Language Char
  | [] => 1
  | (k, v) :: ms =>
    {[',']} * indentations depth * {keyText k} * edits depth v * memberEdits depth ms
termination_by structural ms => ms

end

theorem mem_word (s : List Char) : s ∈ ({s} : Language Char) := rfl

theorem cons_mem_indentations {depth : Nat} {blanks : List Char} (hl : blanks.length = 2 * depth)
    (hb : ∀ c ∈ blanks, c = ' ' ∨ c = '\t') : '\n' :: blanks ∈ indentations depth := by
  have hblanks : blanks ∈ ({[' ']} + {['\t']} : Language Char) ^ (2 * depth) := by
    refine Language.mem_pow.mpr ⟨blanks.map ([·]), ?_, ?_, ?_⟩
    · rw [← List.flatMap_def, List.flatMap_singleton']
    · rw [List.length_map, hl]
    · refine List.forall_mem_map.mpr fun c hc ↦ (Language.mem_add _ _ _).mpr ?_
      obtain rfl | rfl := hb c hc
      · exact .inl (mem_word _)
      · exact .inr (mem_word _)
  exact Language.append_mem_mul (mem_word ['\n']) hblanks

theorem gap_mem_indentations (depth : Nat) : Style.pretty.gap depth ∈ indentations depth :=
  cons_mem_indentations List.length_replicate fun _ hc ↦ .inl (List.eq_of_mem_replicate hc)

theorem ending_mem_endings {depth : Nat} {gap : List Char} (h : gap ∈ indentations depth)
    (bracket : Char) : gap ++ [bracket] ∈ endings depth bracket := by
  have hcomma : [] ∈ (1 + {[',']} : Language Char) :=
    (Language.mem_add _ _ _).mpr (.inl Language.nil_mem_one)
  exact Language.append_mem_mul (Language.append_mem_mul hcomma h) (mem_word _)

theorem comma_ending_mem_endings {depth : Nat} {gap : List Char} (h : gap ∈ indentations depth)
    (bracket : Char) : [','] ++ gap ++ [bracket] ∈ endings depth bracket := by
  have hcomma : [','] ∈ (1 + {[',']} : Language Char) :=
    (Language.mem_add _ _ _).mpr (.inr (mem_word _))
  exact Language.append_mem_mul (Language.append_mem_mul hcomma h) (mem_word _)

section

variable {depth : Nat} {gap s t ending : List Char} {k : String} {v : Json} {vs : List Json}
  {ms : List (String × Json)}

theorem nil_mem_itemEdits (depth : Nat) : [] ∈ itemEdits depth [] := Language.nil_mem_one

theorem nil_mem_memberEdits (depth : Nat) : [] ∈ memberEdits depth [] := Language.nil_mem_one

theorem cons_mem_itemEdits (hgap : gap ∈ indentations depth) (hv : s ∈ edits depth v)
    (hvs : t ∈ itemEdits depth vs) : [','] ++ gap ++ s ++ t ∈ itemEdits depth (v :: vs) := by
  rw [itemEdits]
  have hcomma := Language.append_mem_mul (mem_word [',']) hgap
  exact Language.append_mem_mul (Language.append_mem_mul hcomma hv) hvs

theorem cons_mem_memberEdits (hgap : gap ∈ indentations depth) (hv : s ∈ edits depth v)
    (hms : t ∈ memberEdits depth ms) :
    [','] ++ gap ++ keyText k ++ s ++ t ∈ memberEdits depth ((k, v) :: ms) := by
  rw [memberEdits]
  have hcomma := Language.append_mem_mul (mem_word [',']) hgap
  have hkey := Language.append_mem_mul hcomma (mem_word (keyText k))
  exact Language.append_mem_mul (Language.append_mem_mul hkey hv) hms

theorem arr_mem_edits (hgap : gap ∈ indentations (depth + 1)) (hv : s ∈ edits (depth + 1) v)
    (hvs : t ∈ itemEdits (depth + 1) vs) (hend : ending ∈ endings depth ']') :
    ['['] ++ gap ++ s ++ t ++ ending ∈ edits depth (.arr (v :: vs)) := by
  rw [edits]
  have hopen := Language.append_mem_mul (mem_word ['[']) hgap
  have hitems := Language.append_mem_mul (Language.append_mem_mul hopen hv) hvs
  exact Language.append_mem_mul hitems hend

theorem obj_mem_edits (hgap : gap ∈ indentations (depth + 1)) (hv : s ∈ edits (depth + 1) v)
    (hms : t ∈ memberEdits (depth + 1) ms) (hend : ending ∈ endings depth '}') :
    ['{'] ++ gap ++ keyText k ++ s ++ t ++ ending ∈ edits depth (.obj ((k, v) :: ms)) := by
  rw [edits]
  have hopen := Language.append_mem_mul (mem_word ['{']) hgap
  have hkey := Language.append_mem_mul hopen (mem_word (keyText k))
  have hmembers := Language.append_mem_mul (Language.append_mem_mul hkey hv) hms
  exact Language.append_mem_mul hmembers hend

theorem writeItems_mem (h : ∀ v ∈ vs, write .pretty depth v ∈ edits depth v) :
    writeItems .pretty depth vs ∈ itemEdits depth vs := by
  induction vs with
  | nil => exact nil_mem_itemEdits depth
  | cons v vs ih =>
    have hvs := ih fun w hw ↦ h w (List.mem_cons_of_mem _ hw)
    simpa only [writeItems, List.append_assoc, List.cons_append, List.nil_append] using
      cons_mem_itemEdits (gap_mem_indentations depth) (h v List.mem_cons_self) hvs

theorem writeMembers_mem (h : ∀ m ∈ ms, write .pretty depth m.2 ∈ edits depth m.2) :
    writeMembers .pretty depth ms ∈ memberEdits depth ms := by
  induction ms with
  | nil => exact nil_mem_memberEdits depth
  | cons m ms ih =>
    obtain ⟨k, v⟩ := m
    have hms := ih fun n hn ↦ h n (List.mem_cons_of_mem _ hn)
    simpa only [writeMembers, keyText, List.append_assoc, List.cons_append, List.nil_append] using
      cons_mem_memberEdits (gap_mem_indentations depth) (h (k, v) List.mem_cons_self) hms

end

/-- The indented text itself is among its edited forms. -/
theorem write_mem_edits (v : Json) (depth : Nat) : write .pretty depth v ∈ edits depth v := by
  induction v generalizing depth with
  | null | bool | num | str => exact mem_word _
  | arr vs ih =>
    cases vs with
    | nil => exact Language.append_mem_mul (mem_word ['[']) (mem_word [']'])
    | cons v vs =>
      have hv := ih v List.mem_cons_self (depth + 1)
      have hvs := writeItems_mem fun w hw ↦ ih w (List.mem_cons_of_mem _ hw) (depth + 1)
      have hend := ending_mem_endings (gap_mem_indentations depth) ']'
      simpa only [write, List.append_assoc, List.cons_append, List.nil_append] using
        arr_mem_edits (gap_mem_indentations (depth + 1)) hv hvs hend
  | obj ms ih =>
    cases ms with
    | nil => exact Language.append_mem_mul (mem_word ['{']) (mem_word ['}'])
    | cons m ms =>
      obtain ⟨k, v⟩ := m
      have hv := ih (k, v) List.mem_cons_self (depth + 1)
      have hms := writeMembers_mem fun n hn ↦ ih n (List.mem_cons_of_mem _ hn) (depth + 1)
      have hend := ending_mem_endings (gap_mem_indentations depth) '}'
      simpa only [write, keyText, List.append_assoc, List.cons_append, List.nil_append] using
        obj_mem_edits (gap_mem_indentations (depth + 1)) hv hms hend

section

variable {σ : Type} {R : σ → List Char → Prop} {L M : Language Char} {b b' b'' : σ}

/-- Every text of a language leads a reader from one state to another one: what `R` says of the
second state and a rest it says of the first state and the text with that rest. -/
def Leads (R : σ → List Char → Prop) (L : Language Char) (b b' : σ) : Prop :=
  ∀ s ∈ L, ∀ rest, R b' rest → R b (s ++ rest)

theorem Leads.refl (b : σ) : Leads R 1 b b := by
  rintro _ rfl rest h
  exact h

theorem Leads.mul (h : Leads R L b b') (h' : Leads R M b' b'') : Leads R (L * M) b b'' := by
  intro s hs rest hrest
  obtain ⟨t, ht, u, hu, rfl⟩ := Language.mem_mul.mp hs
  rw [List.append_assoc]
  exact h t ht _ (h' u hu _ hrest)

theorem Leads.add (h : Leads R L b b') (h' : Leads R M b b') : Leads R (L + M) b b' := by
  intro s hs
  rcases (Language.mem_add _ _ _).mp hs with hs | hs
  · exact h s hs
  · exact h' s hs

theorem Leads.pow (h : Leads R L b b) (n : Nat) : Leads R (L ^ n) b b := by
  induction n with
  | zero => exact .refl b
  | succ n ih => exact ih.mul h

theorem Leads.word {s : List Char} (h : ∀ rest, R b' rest → R b (s ++ rest)) :
    Leads R {s} b b' := by
  rintro _ rfl
  exact h

theorem Leads.indentations (hbreak : Leads R {['\n']} b b) (hspace : Leads R {[' ']} b b)
    (htab : Leads R {['\t']} b b) (depth : Nat) : Leads R (indentations depth) b b :=
  hbreak.mul ((hspace.add htab).pow _)

/-- At the end of a list or object a reader goes one way or the other. -/
theorem Leads.endings {depth : Nat} {bracket : Char}
    (hbare : Leads R (Json.indentations depth * {[bracket]}) b b')
    (hcomma : Leads R ({[',']} * Json.indentations depth * {[bracket]}) b b') :
    Leads R (endings depth bracket) b b' := by
  rw [Json.endings, add_mul, add_mul, one_mul]
  exact hbare.add hcomma

end

inductive Sign : Char → Token → Prop
  | openList : Sign '[' .openList
  | closeList : Sign ']' .closeList
  | openObject : Sign '{' .openObject
  | closeObject : Sign '}' .closeObject
  | comma : Sign ',' .comma

theorem Sign.begin? {c : Char} {t : Token} (h : Sign c t) (done : List Token) :
    Lexer.begin? done c = some ⟨.between, t :: done⟩ := by
  cases h <;> rfl

theorem Sign.delimited {c : Char} {t : Token} (h : Sign c t) (s : List Char) :
    Delimited (c :: s) := by
  cases h <;> exact ⟨rfl, rfl⟩

namespace Builder

def EndsValue (b : Builder) : Prop :=
  match b.expect with
  | .itemEnd _ | .memberEnd _ | .nothing _ => True
  | _ => False

theorem endsValue_deliver (v : Written) (frames : List Frame) : (deliver v frames).EndsValue := by
  cases frames with
  | nil => trivial
  | cons f frames => cases f <;> trivial

/-- From this builder on a text is read as `w`, if it is read at all. -/
structure ReadsOnly (w : Written) (b : Builder) (s : List Char) : Prop where
  delimited : b.EndsValue → Delimited s
  reads : ∃ ts, Lexes s ts ∧ ∀ u, (b.run ts).bind finish? = some u → u = w

variable {w : Written} {b b' : Builder} {frames : List Frame} {c : Char} {t : Token}

theorem leads_sign (hc : Sign c t) (hb : b.step t = some b') :
    Leads (ReadsOnly w) {[c]} b b' := by
  refine .word fun rest h ↦ ⟨fun _ ↦ hc.delimited rest, ?_⟩
  obtain ⟨ts, hts, hw⟩ := h.reads
  refine ⟨t :: ts, hts.token hc.begin?, ?_⟩
  rwa [run_cons, hb, Option.bind_some]

/-- Where a token can not come, nothing is read. -/
theorem leads_stuck (hc : Sign c t) (hb : b.step t = none) :
    Leads (ReadsOnly w) {[c]} b b' := by
  refine .word fun rest h ↦ ⟨fun _ ↦ hc.delimited rest, ?_⟩
  obtain ⟨ts, hts, -⟩ := h.reads
  refine ⟨t :: ts, hts.token hc.begin?, ?_⟩
  simp [run_cons, hb]

theorem leads_blank (hc : Lexer.isGap c = true) (hd : ∀ s, Delimited (c :: s)) :
    Leads (ReadsOnly w) {[c]} b b := by
  refine .word fun rest h ↦ ⟨fun _ ↦ hd rest, ?_⟩
  obtain ⟨ts, hts, hw⟩ := h.reads
  exact ⟨ts, hts.blank hc, hw⟩

theorem leads_indentations (depth : Nat) (b : Builder) :
    Leads (ReadsOnly w) (indentations depth) b b :=
  .indentations (leads_blank rfl fun _ ↦ ⟨rfl, rfl⟩) (leads_blank rfl fun _ ↦ ⟨rfl, rfl⟩)
    (leads_blank rfl fun _ ↦ ⟨rfl, rfl⟩) depth

/-- Where a value may come, and the frames that it belongs into. -/
inductive Awaits : Builder → List Frame → Prop
  | value (frames : List Frame) : Awaits ⟨frames, .value⟩ frames
  | firstItem (frames : List Frame) : Awaits ⟨frames, .itemOrClose⟩ (.item [] :: frames)

theorem Awaits.step (hb : Awaits b frames) (ht : t ≠ .closeList) :
    b.step t = beginValue frames t := by
  cases hb with
  | value => rfl
  | firstItem =>
    cases t with
    | closeList => exact absurd rfl ht
    | _ => rfl

theorem Awaits.step_openList (hb : Awaits b frames) :
    b.step .openList = some ⟨frames, .itemOrClose⟩ := by
  cases hb <;> rfl

theorem Awaits.step_openObject (hb : Awaits b frames) :
    b.step .openObject = some ⟨frames, .keyOrClose⟩ := by
  cases hb <;> rfl

theorem Awaits.not_endsValue (hb : Awaits b frames) : ¬ b.EndsValue := by
  cases hb <;> exact id

/-- A scalar is one token. -/
theorem leads_scalar {v : Written} {s : List Char} (t : Token) (hb : Awaits b frames)
    (hv : beginValue frames t = some (deliver v frames))
    (hs : ∀ rest ts, Delimited rest → Lexes rest ts → Lexes (s ++ rest) (t :: ts)) :
    Leads (ReadsOnly w) {s} b (deliver v frames) := by
  have ht : t ≠ .closeList := by
    rintro rfl
    cases hv
  refine .word fun rest h ↦ ⟨fun hend ↦ absurd hend hb.not_endsValue, ?_⟩
  obtain ⟨ts, hts, hw⟩ := h.reads
  refine ⟨t :: ts, hs rest ts (h.delimited (endsValue_deliver v frames)) hts, ?_⟩
  rwa [run_cons, hb.step ht, hv, Option.bind_some]

/-- A key is a string and a colon. -/
theorem leads_key {done : List (Option String × Written)} (k : String)
    (hb : b.step (.str (some k)) = some ⟨frames, .colon done (some k)⟩) (hend : ¬ b.EndsValue) :
    Leads (ReadsOnly w) {keyText k} b ⟨.member done (some k) :: frames, .value⟩ := by
  refine .word fun rest h ↦ ⟨fun h ↦ absurd h hend, ?_⟩
  obtain ⟨ts, hts, hw⟩ := h.reads
  refine ⟨.str (some k) :: .colon :: ts, ?_, ?_⟩
  · rw [keyText, List.append_assoc]
    exact (hts.colon .pretty).quoted k
  · rwa [run_cons, hb, Option.bind_some]

theorem leads_listEnd (frames : List Frame) (done : List Written) (depth : Nat) :
    Leads (ReadsOnly w) (endings depth ']') ⟨frames, .itemEnd done⟩
      (deliver (.arr done.reverse) frames) := by
  refine .endings ?_ ?_
  · exact (leads_indentations depth _).mul (leads_sign .closeList rfl)
  · -- The comma promises a further item, so nothing is read when the bracket comes.
    have hcomma : Leads (ReadsOnly w) {[',']} ⟨frames, .itemEnd done⟩
        ⟨.item done :: frames, .value⟩ := leads_sign .comma rfl
    exact (hcomma.mul (leads_indentations depth _)).mul (leads_stuck .closeList rfl)

theorem leads_objectEnd (frames : List Frame) (done : List (Option String × Written))
    (depth : Nat) : Leads (ReadsOnly w) (endings depth '}') ⟨frames, .memberEnd done⟩
      (deliver (.obj done.reverse) frames) := by
  refine .endings ?_ ?_
  · exact (leads_indentations depth _).mul (leads_sign .closeObject rfl)
  · have hcomma : Leads (ReadsOnly w) {[',']} ⟨frames, .memberEnd done⟩ ⟨frames, .key done⟩ :=
      leads_sign .comma rfl
    exact (hcomma.mul (leads_indentations depth _)).mul (leads_stuck .closeObject rfl)

/-- The builder reads every edited form of a value as the value, if it reads it at all. -/
def ReadsEdits (w : Written) (v : Json) : Prop :=
  ∀ (b : Builder) (frames : List Frame) (depth : Nat), Awaits b frames →
    Leads (ReadsOnly w) (edits depth v) b (deliver v.written frames)

theorem leads_itemEdits {vs : List Json} (hvs : ∀ v ∈ vs, ReadsEdits w v) (frames : List Frame)
    (done : List Written) (depth : Nat) :
    Leads (ReadsOnly w) (itemEdits depth vs) ⟨frames, .itemEnd done⟩
      ⟨frames, .itemEnd ((writtenItems vs).reverse ++ done)⟩ := by
  induction vs generalizing done with
  | nil => exact .refl _
  | cons v vs ih =>
    have hcomma : Leads (ReadsOnly w) {[',']} ⟨frames, .itemEnd done⟩
        ⟨.item done :: frames, .value⟩ := leads_sign .comma rfl
    have hv := hvs v List.mem_cons_self _ _ depth (.value (.item done :: frames))
    have hrest := ih (fun w hw ↦ hvs w (List.mem_cons_of_mem _ hw)) (v.written :: done)
    have h := ((hcomma.mul (leads_indentations depth _)).mul hv).mul hrest
    simpa only [itemEdits, writtenItems, List.reverse_cons, List.append_assoc,
      List.singleton_append] using h

theorem leads_memberEdits {ms : List (String × Json)} (hms : ∀ m ∈ ms, ReadsEdits w m.2)
    (frames : List Frame) (done : List (Option String × Written)) (depth : Nat) :
    Leads (ReadsOnly w) (memberEdits depth ms) ⟨frames, .memberEnd done⟩
      ⟨frames, .memberEnd ((writtenMembers ms).reverse ++ done)⟩ := by
  induction ms generalizing done with
  | nil => exact .refl _
  | cons m ms ih =>
    obtain ⟨k, v⟩ := m
    have hcomma : Leads (ReadsOnly w) {[',']} ⟨frames, .memberEnd done⟩ ⟨frames, .key done⟩ :=
      leads_sign .comma rfl
    have hk : Leads (ReadsOnly w) {keyText k} ⟨frames, .key done⟩
        ⟨.member done (some k) :: frames, .value⟩ := leads_key k rfl id
    have hv : ReadsEdits w v := hms (k, v) List.mem_cons_self
    have hrest := ih (fun n hn ↦ hms n (List.mem_cons_of_mem _ hn)) ((some k, v.written) :: done)
    have h := (((hcomma.mul (leads_indentations depth _)).mul hk).mul
      (hv _ _ depth (.value _))).mul hrest
    simpa only [memberEdits, writtenMembers, List.reverse_cons, List.append_assoc,
      List.singleton_append] using h

theorem readsEdits {v : Json} (hv : v.Integral) : ReadsEdits w v := by
  induction v with
  | null => exact fun _ _ _ hb ↦ leads_scalar .null hb rfl fun _ _ ↦ .word rfl fun _ _ ↦ rfl
  | bool b =>
    intro _ _ _ hb
    refine leads_scalar (.bool b) hb rfl fun _ _ ↦ ?_
    cases b with
    | true => exact .word rfl fun _ _ ↦ rfl
    | false => exact .word rfl fun _ _ ↦ rfl
  | num n =>
    have hn : n.ReadsAs n := readsAs_of_isWord (integral_num_iff.mp hv)
    exact fun _ _ _ hb ↦ leads_scalar (.num (some n)) hb rfl fun _ _ ↦ .number hn
  | str s => exact fun _ _ _ hb ↦ leads_scalar (.str (some s)) hb rfl fun _ _ _ h ↦ h.quoted s
  | arr vs ih =>
    intro b frames depth hb
    have hopen : Leads (ReadsOnly w) {['[']} b ⟨frames, .itemOrClose⟩ :=
      leads_sign .openList hb.step_openList
    have hvs (v : Json) (hm : v ∈ vs) : ReadsEdits w v := ih v hm (integral_arr_iff.mp hv v hm)
    cases vs with
    | nil => exact hopen.mul (leads_sign .closeList rfl)
    | cons v vs =>
      have hfirst := hvs v List.mem_cons_self _ _ (depth + 1) (.firstItem frames)
      have hitems := leads_itemEdits (fun w hw ↦ hvs w (List.mem_cons_of_mem _ hw)) frames
        [v.written] (depth + 1)
      have h := (((hopen.mul (leads_indentations (depth + 1) _)).mul hfirst).mul hitems).mul
        (leads_listEnd frames _ depth)
      simpa [edits, written, writtenItems] using h
  | obj ms ih =>
    intro b frames depth hb
    have hopen : Leads (ReadsOnly w) {['{']} b ⟨frames, .keyOrClose⟩ :=
      leads_sign .openObject hb.step_openObject
    have hms (m : String × Json) (hm : m ∈ ms) : ReadsEdits w m.2 :=
      ih m hm (integral_obj_iff.mp hv m hm)
    cases ms with
    | nil => exact hopen.mul (leads_sign .closeObject rfl)
    | cons m ms =>
      obtain ⟨k, v⟩ := m
      have hk : Leads (ReadsOnly w) {keyText k} ⟨frames, .keyOrClose⟩
          ⟨.member [] (some k) :: frames, .value⟩ := leads_key k rfl id
      have hfirst : ReadsEdits w v := hms (k, v) List.mem_cons_self
      have hmembers := leads_memberEdits (fun n hn ↦ hms n (List.mem_cons_of_mem _ hn)) frames
        [(some k, v.written)] (depth + 1)
      have h := ((((hopen.mul (leads_indentations (depth + 1) _)).mul hk).mul
        (hfirst _ _ (depth + 1) (.value _))).mul hmembers).mul (leads_objectEnd frames _ depth)
      simpa [edits, written, writtenMembers] using h

end Builder

/-- If an edited form of a value is JSON, it is the value. -/
theorem eq_of_parse?_of_mem_edits {u v : Json} (hv : v.Integral) {s : List Char} {depth : Nat}
    (hs : s ∈ edits depth v) (h : parse? (String.ofList s) = some u) : u = v.canonicalize := by
  have hend : Builder.ReadsOnly v.written (Builder.deliver v.written []) [] := by
    refine ⟨fun _ ↦ trivial, [], lexes_nil, fun u hu ↦ ?_⟩
    exact (Option.some.inj hu).symm
  have hread := Builder.readsEdits hv Builder.start [] depth (.value []) s hs [] hend
  rw [List.append_nil] at hread
  obtain ⟨ts, hts, hw⟩ := hread.reads
  have htokens : tokens? s = some ts := hts []
  obtain ⟨us, hus, h⟩ := Option.bind_eq_some_iff.mp h
  rw [String.toList_ofList, htokens] at hus
  cases hus
  split at h
  · obtain ⟨x, hx, h⟩ := Option.bind_eq_some_iff.mp h
    obtain ⟨y, hy, rfl⟩ := Option.map_eq_some_iff.mp h
    rw [hw x hx, value?_written] at hy
    rw [Option.some.inj hy]
  · cases h

end ConfidentialPolicy.Json

import ConfidentialPolicy.PolicyText.Lists
import ConfidentialPolicy.Proofs.Json.Edits
import ConfidentialPolicy.Proofs.Yaml.Lexing
import ConfidentialPolicy.Proofs.Yaml.Value

namespace ConfidentialPolicy

namespace PolicyText

theorem expandTabs_append (s t : List Char) :
    expandTabs (s ++ t) = expandTabs s ++ expandTabs t :=
  List.flatMap_append

theorem expandTabs_eq_self {s : List Char} (h : ∀ c ∈ s, c ≠ '\t') : expandTabs s = s := by
  induction s with
  | nil => rfl
  | cons c s ih =>
    obtain ⟨hc, hs⟩ := List.forall_mem_cons.mp h
    rw [expandTabs, List.flatMap_cons, if_neg hc]
    exact congrArg (c :: ·) (ih hs)

end PolicyText

namespace Yaml

open Json PolicyText Lexer

def IsLiteral (s : String) : Prop := ∀ c ∈ s.toList, isLiteral c = true

instance (s : String) : Decidable (IsLiteral s) :=
  decidable_of_iff (s.toList.all isLiteral = true) List.all_eq_true

/-- Strings and keys stand between quotes as they are, and keys are short enough to be found. -/
def Legible : Json → Prop :=
  Every fun v ↦ match v with
    | .str s => IsLiteral s
    | .obj ms => ∀ m ∈ ms, IsLiteral m.1 ∧ m.1.length + 2 ≤ maxKeyLength
    | _ => True

@[simp]
theorem legible_null : Legible .null := ⟨trivial, by simp [parts]⟩

@[simp]
theorem legible_num (n : Number) : Legible (.num n) := ⟨trivial, by simp [parts]⟩

theorem legible_str_iff {s : String} : Legible (.str s) ↔ IsLiteral s := by
  simp [Legible, every_iff (v := .str s), parts]

theorem legible_arr_iff {vs : List Json} : Legible (.arr vs) ↔ ∀ v ∈ vs, Legible v := by
  simp only [Legible, every_arr_iff, true_and]

theorem legible_obj_iff {ms : List (String × Json)} :
    Legible (.obj ms) ↔ (∀ m ∈ ms, IsLiteral m.1 ∧ m.1.length + 2 ≤ maxKeyLength) ∧
      ∀ m ∈ ms, Legible m.2 :=
  every_obj_iff

theorem Legible.canonicalize {v : Json} (h : Legible v) : Legible v.canonicalize := by
  induction v with
  | null | bool | num | str => exact h
  | arr vs ih =>
    simp only [Json.canonicalize, canonicalizeItems_eq_map]
    refine legible_arr_iff.mpr (List.forall_mem_map.mpr fun v hv ↦ ?_)
    exact ih v hv (legible_arr_iff.mp h v hv)
  | obj ms ih =>
    obtain ⟨hkeys, hinner⟩ := legible_obj_iff.mp h
    simp only [Json.canonicalize, canonicalizeMembers_eq_map]
    refine legible_obj_iff.mpr ⟨fun n hn ↦ ?_, fun n hn ↦ ?_⟩
    · obtain ⟨m, hm, rfl⟩ := List.mem_map.mp (KeyMap.mem_of_mem_ofList hn)
      exact hkeys m hm
    · obtain ⟨m, hm, rfl⟩ := List.mem_map.mp (KeyMap.mem_of_mem_ofList hn)
      exact ih m hm (hinner m hm)

theorem escape_of_isLiteral {c : Char} (hc : isLiteral c = true) : escape c = [c] := by
  have hspace : ¬ c.toNat < 0x20 := by
    rcases isOrdinary_of_isLiteral hc with rfl | ⟨hlow, -⟩
    · cases hc
    · omega
  simp [escape, hspace, ne_of_isLiteral hc (d := '"') rfl, ne_of_isLiteral hc (d := '\\') rfl,
    ne_of_isLiteral hc (d := '\x08') rfl, ne_of_isLiteral hc (d := '\t') rfl,
    ne_of_isLiteral hc (d := '\n') rfl, ne_of_isLiteral hc (d := '\x0c') rfl,
    ne_of_isLiteral hc (d := '\r') rfl]

theorem quoted_of_isLiteral {s : String} (hs : IsLiteral s) :
    Json.quoted s = '"' :: (s.toList ++ ['"']) := by
  have hescape : s.toList.flatMap escape = s.toList := by
    rw [List.flatMap_congr fun c hc ↦ escape_of_isLiteral (hs c hc), List.flatMap_singleton']
  rw [Json.quoted, hescape]

theorem expandTabs_quoted {s : String} (hs : IsLiteral s) :
    expandTabs (Json.quoted s) = '"' :: (s.toList ++ ['"']) := by
  rw [quoted_of_isLiteral hs]
  refine expandTabs_eq_self ?_
  simp only [List.forall_mem_cons, List.forall_mem_append]
  exact ⟨by decide, fun c hc ↦ ne_of_isLiteral (hs c hc) rfl, by decide, by simp⟩

theorem isWord_intText (n : Int) : IsWord (intText n) := by
  obtain ⟨c, cs, hds, hc, hcs⟩ := exists_toDigits_eq_cons n.natAbs
  have hdigits : ∀ d ∈ c :: cs, isWordChar d = true :=
    List.forall_mem_cons.mpr ⟨by simp [isWordChar, hc], fun d hd ↦ by simp [isWordChar, hcs d hd]⟩
  by_cases hn : n < 0
  · rw [intText, if_pos hn, hds]
    exact ⟨List.forall_mem_cons.mpr ⟨rfl, hdigits⟩, '-', c :: cs, rfl, fun _ ↦ ⟨c, cs, rfl, hc⟩⟩
  · rw [intText, if_neg hn, hds]
    refine ⟨hdigits, c, cs, rfl, ?_⟩
    rintro rfl
    cases hc

theorem isWord_of_letters {c : Char} {t : List Char} (hc : c ≠ '-')
    (h : (c :: t).all isWordChar = true) : IsWord (c :: t) :=
  ⟨List.all_eq_true.mp h, c, t, rfl, fun hdash ↦ absurd hdash hc⟩

namespace Builder

def behind (n : Node) (frames : List Frame) : Builder :=
  ⟨(deliver n frames).1, (deliver n frames).2, {}, []⟩

def EndsValue (b : Builder) : Prop :=
  match b.expect with
  | .itemEnd _ | .memberEnd _ | .nothing _ => True
  | _ => False

def awaitsKey (b : Builder) : Bool :=
  match b.expect with
  | .member _ => true
  | _ => false

theorem endsValue_behind (n : Node) (frames : List Frame) : (behind n frames).EndsValue := by
  induction frames generalizing n with
  | nil => trivial
  | cons f frames ih =>
    cases f with
    | anchored id => exact ih (.anchored id n)
    | item | pair | member => trivial

theorem awaitsKey_behind (n : Node) (frames : List Frame) :
    (behind n frames).awaitsKey = false := by
  have hend := endsValue_behind n frames
  unfold EndsValue at hend
  unfold awaitsKey
  split
  · next heq => simp [heq] at hend
  · rfl

/-- From this builder on a text is read as `n` once its tabs are spaces. -/
structure Reads (n : Node) (b : Builder) (s : List Char) : Prop where
  delimited : b.EndsValue → Delimited (expandTabs s)
  reads : ∃ ts, Lexes b.awaitsKey (expandTabs s) ts ∧ (b.run ts).bind finish? = some n

variable {n : Node} {b b' : Builder} {frames : List Frame} {c : Char} {t : Token}

theorem run_cons (b : Builder) (t : Token) (ts : List Token) :
    b.run (t :: ts) = (b.step t).bind (·.run ts) := by
  simp only [run, List.foldlM_cons]
  rfl

theorem leads_sign (hc : Sign c t) (hb : b.step t = some b')
    (hkey : b'.awaitsKey = true → t.startsEntry = true) : Leads (Reads n) {[c]} b b' := by
  refine .word fun rest h ↦ ?_
  obtain ⟨ts, hts, hn⟩ := h.reads
  have htext : expandTabs ([c] ++ rest) = c :: expandTabs rest := by
    rw [expandTabs_append]
    cases hc <;> rfl
  refine ⟨fun _ ↦ ?_, t :: ts, ?_, ?_⟩
  · rw [htext]
    exact .inl hc.isBracket
  · rw [htext]
    exact hts.sign hc hkey _
  · rwa [run_cons, hb, Option.bind_some]

theorem leads_space : Leads (Reads n) {[' ']} b b := by
  refine .word fun rest h ↦ ?_
  obtain ⟨ts, hts, hn⟩ := h.reads
  exact ⟨fun hend ↦ .inr ⟨rfl, h.delimited hend⟩, ts, hts.space, hn⟩

theorem leads_break : Leads (Reads n) {['\n']} b b := by
  refine .word fun rest h ↦ ?_
  obtain ⟨ts, hts, hn⟩ := h.reads
  exact ⟨fun hend ↦ .inr ⟨rfl, h.delimited hend⟩, ts, hts.break, hn⟩

/-- A tab is read as four spaces. -/
theorem leads_tab : Leads (Reads n) {['\t']} b b := by
  refine .word fun rest h ↦ ?_
  have hspace := leads_space (n := n) (b := b) [' '] rfl
  have hspaces := hspace _ (hspace _ (hspace _ (hspace rest h)))
  exact ⟨hspaces.delimited, hspaces.reads⟩

theorem leads_indentations (depth : Nat) (b : Builder) :
    Leads (Reads n) (indentations depth) b b :=
  .indentations leads_break leads_space leads_tab depth

inductive Awaits : Builder → List Frame → Prop
  | root : Awaits ⟨[], .root, {}, []⟩ []
  | item (frames : List Frame) (done : List Node) :
    Awaits ⟨frames, .item done, {}, []⟩ (.item done :: frames)
  | memberValue (frames : List Frame) (done : List (Node × Node)) (key : Node) :
    Awaits ⟨frames, .memberValue done key, {}, []⟩ (.member done key :: frames)

theorem Awaits.not_endsValue (hb : Awaits b frames) : ¬ b.EndsValue := by
  cases hb <;> exact id

theorem leads_plain {w : List Char} (hw : IsWord w) (hb : Awaits b frames) :
    Leads (Reads n) {w} b (behind (.scalar ⟨w, true, none⟩) frames) := by
  refine .word fun rest h ↦ ?_
  obtain ⟨ts, hts, hn⟩ := h.reads
  rw [awaitsKey_behind] at hts
  have hstep : b.step (.plain w) = some (behind (.scalar ⟨w, true, none⟩) frames) := by
    cases hb <;> rfl
  refine ⟨fun hend ↦ absurd hend hb.not_endsValue, .plain w :: ts, ?_, ?_⟩
  · rw [expandTabs_append, expandTabs_eq_self fun c hc ↦ ne_of_isWordChar (hw.chars c hc) rfl]
    exact hts.word hw (h.delimited (endsValue_behind _ _))
  · rwa [run_cons, hstep, Option.bind_some]

theorem leads_quoted {s : String} (hs : IsLiteral s) (hb : Awaits b frames) :
    Leads (Reads n) {Json.quoted s} b (behind (.scalar ⟨s.toList, false, none⟩) frames) := by
  refine .word fun rest h ↦ ?_
  obtain ⟨ts, hts, hn⟩ := h.reads
  rw [awaitsKey_behind] at hts
  have hstep : b.step (.quoted s.toList) =
      some (behind (.scalar ⟨s.toList, false, none⟩) frames) := by
    cases hb <;> rfl
  refine ⟨fun hend ↦ absurd hend hb.not_endsValue, .quoted s.toList :: ts, ?_, ?_⟩
  · rw [expandTabs_append, expandTabs_quoted hs, List.cons_append, List.append_assoc]
    exact hts.quoted hs
  · rwa [run_cons, hstep, Option.bind_some]

theorem leads_key {k : String} (hk : IsLiteral k) (hlength : k.length + 2 ≤ maxKeyLength)
    (frames : List Frame) (done : List (Node × Node)) :
    Leads (Reads n) {keyText k} ⟨frames, .member done, {}, []⟩
      ⟨frames, .memberValue done (.scalar ⟨k.toList, false, none⟩), {}, []⟩ := by
  refine .word fun rest h ↦ ?_
  obtain ⟨ts, hts, hn⟩ := h.reads
  refine ⟨nofun, .key :: .quoted k.toList :: .colon :: ts, ?_, hn⟩
  have hcolon : expandTabs (Style.pretty.colon ++ rest) = ':' :: ' ' :: expandTabs rest := rfl
  rw [keyText, List.append_assoc, expandTabs_append, expandTabs_quoted hk, hcolon,
    List.cons_append, List.append_assoc]
  exact hts.space.key hk (by rwa [String.length_toList])

theorem Awaits.step_openList (hb : Awaits b frames) (hd : depth frames < Node.maxDepth) :
    b.step .openList = some ⟨frames, .item [], {}, []⟩ := by
  cases hb <;> simp [step, beginCollection?, valueFrames?, goOn, hd]

theorem Awaits.step_openMap (hb : Awaits b frames) (hd : depth frames < Node.maxDepth) :
    b.step .openMap = some ⟨frames, .member [], {}, []⟩ := by
  cases hb <;> simp [step, beginCollection?, valueFrames?, goOn, hd]

theorem leads_closeList (frames : List Frame) (done : List Node)
    (hb : b.step .closeList = some (behind (.list done.reverse) frames)) :
    Leads (Reads n) {[']']} b (behind (.list done.reverse) frames) :=
  leads_sign .closeList hb fun h ↦ by simp [awaitsKey_behind] at h

theorem leads_closeMap (frames : List Frame) (done : List (Node × Node))
    (hb : b.step .closeMap = some (behind (.map done.reverse) frames)) :
    Leads (Reads n) {['}']} b (behind (.map done.reverse) frames) :=
  leads_sign .closeMap hb fun h ↦ by simp [awaitsKey_behind] at h

theorem leads_itemComma (frames : List Frame) (done : List Node) :
    Leads (Reads n) {[',']} ⟨frames, .itemEnd done, {}, []⟩ ⟨frames, .item done, {}, []⟩ :=
  leads_sign .comma rfl fun _ ↦ rfl

theorem leads_memberComma (frames : List Frame) (done : List (Node × Node)) :
    Leads (Reads n) {[',']} ⟨frames, .memberEnd done, {}, []⟩ ⟨frames, .member done, {}, []⟩ :=
  leads_sign .comma rfl fun _ ↦ rfl

theorem leads_listEnd (frames : List Frame) (done : List Node) (depth : Nat) :
    Leads (Reads n) (endings depth ']') ⟨frames, .itemEnd done, {}, []⟩
      (behind (.list done.reverse) frames) := by
  refine .endings ?_ ?_
  · exact (leads_indentations depth _).mul (leads_closeList frames done rfl)
  · exact ((leads_itemComma frames done).mul (leads_indentations depth _)).mul
      (leads_closeList frames done rfl)

theorem leads_mapEnd (frames : List Frame) (done : List (Node × Node)) (depth : Nat) :
    Leads (Reads n) (endings depth '}') ⟨frames, .memberEnd done, {}, []⟩
      (behind (.map done.reverse) frames) := by
  refine .endings ?_ ?_
  · exact (leads_indentations depth _).mul (leads_closeMap frames done rfl)
  · exact ((leads_memberComma frames done).mul (leads_indentations depth _)).mul
      (leads_closeMap frames done rfl)

/-- The builder reads every edited form of a value as its node, where there is room for it. -/
def ReadsEdits (n : Node) (v : Json) : Prop :=
  ∀ (b : Builder) (frames : List Frame) (d : Nat), Awaits b frames →
    depth frames + v.depth ≤ Node.maxDepth →
    Leads (Reads n) (edits d v) b (behind (node v) frames)

theorem leads_itemEdits {vs : List Json} (hvs : ∀ v ∈ vs, ReadsEdits n v) (frames : List Frame)
    (hd : depth frames + 1 + itemsDepth vs ≤ Node.maxDepth) (done : List Node) (d : Nat) :
    Leads (Reads n) (itemEdits d vs) ⟨frames, .itemEnd done, {}, []⟩
      ⟨frames, .itemEnd ((itemNodes vs).reverse ++ done), {}, []⟩ := by
  induction vs generalizing done with
  | nil => exact .refl _
  | cons v vs ih =>
    rw [itemsDepth] at hd
    have hroom : depth (.item done :: frames) + v.depth ≤ Node.maxDepth := by
      simp only [depth, List.foldr_cons, weight] at hd ⊢
      omega
    have hv := hvs v List.mem_cons_self _ _ d (.item frames done) hroom
    have hrest := ih (fun w hw ↦ hvs w (List.mem_cons_of_mem _ hw)) (by omega) (node v :: done)
    have h := (((leads_itemComma frames done).mul (leads_indentations d _)).mul hv).mul hrest
    simpa only [itemEdits, itemNodes, List.reverse_cons, List.append_assoc,
      List.singleton_append] using h

theorem leads_memberEdits {ms : List (String × Json)} (hms : ∀ m ∈ ms, ReadsEdits n m.2)
    (hkeys : ∀ m ∈ ms, IsLiteral m.1 ∧ m.1.length + 2 ≤ maxKeyLength) (frames : List Frame)
    (hd : depth frames + 1 + membersDepth ms ≤ Node.maxDepth) (done : List (Node × Node))
    (d : Nat) : Leads (Reads n) (memberEdits d ms) ⟨frames, .memberEnd done, {}, []⟩
      ⟨frames, .memberEnd ((memberNodes ms).reverse ++ done), {}, []⟩ := by
  induction ms generalizing done with
  | nil => exact .refl _
  | cons m ms ih =>
    obtain ⟨k, v⟩ := m
    rw [membersDepth] at hd
    obtain ⟨hk, hlength⟩ := hkeys (k, v) List.mem_cons_self
    have hroom (key : Node) :
        depth (.member done key :: frames) + v.depth ≤ Node.maxDepth := by
      simp only [depth, List.foldr_cons, weight] at hd ⊢
      omega
    have hkey := leads_key (n := n) hk hlength frames done
    have hv : ReadsEdits n v := hms (k, v) List.mem_cons_self
    have hrest := ih (fun w hw ↦ hms w (List.mem_cons_of_mem _ hw))
      (fun w hw ↦ hkeys w (List.mem_cons_of_mem _ hw)) (by omega)
      ((.scalar ⟨k.toList, false, none⟩, node v) :: done)
    have h := ((((leads_memberComma frames done).mul (leads_indentations d _)).mul hkey).mul
      (hv _ _ d (.memberValue frames done _) (hroom _))).mul hrest
    simpa only [memberEdits, memberNodes, List.reverse_cons, List.append_assoc,
      List.singleton_append] using h

theorem readsEdits {v : Json} (hi : v.Integral) (hl : Legible v) : ReadsEdits n v := by
  induction v with
  | null => exact fun _ _ _ hb _ ↦ leads_plain (isWord_of_letters (by decide) rfl) hb
  | bool b =>
    cases b with
    | true => exact fun _ _ _ hb _ ↦ leads_plain (isWord_of_letters (by decide) rfl) hb
    | false => exact fun _ _ _ hb _ ↦ leads_plain (isWord_of_letters (by decide) rfl) hb
  | num m =>
    cases m with
    | float x => exact absurd (integral_num_iff.mp hi) id
    | int m => exact fun _ _ _ hb _ ↦ leads_plain (isWord_intText m) hb
  | str s => exact fun _ _ _ hb _ ↦ leads_quoted (legible_str_iff.mp hl) hb
  | arr vs ih =>
    intro b frames d hb hd
    have hopen : Leads (Reads n) {['[']} b ⟨frames, .item [], {}, []⟩ :=
      leads_sign .openList (hb.step_openList (Nat.lt_of_lt_of_le (by simp [Json.depth]) hd))
        fun _ ↦ rfl
    have hvs (v : Json) (hm : v ∈ vs) : ReadsEdits n v :=
      ih v hm (integral_arr_iff.mp hi v hm) (legible_arr_iff.mp hl v hm)
    cases vs with
    | nil => exact hopen.mul (leads_closeList frames [] rfl)
    | cons v vs =>
      simp only [Json.depth, itemsDepth] at hd
      -- An open list takes up one level of the room that there is for its items.
      have hroom : depth (.item [] :: frames) + v.depth ≤ Node.maxDepth := by
        simp only [depth, List.foldr_cons, weight] at hd ⊢
        omega
      have hfirst := hvs v List.mem_cons_self _ _ (d + 1) (.item frames []) hroom
      have hitems := leads_itemEdits (fun w hw ↦ hvs w (List.mem_cons_of_mem _ hw)) frames
        (by omega) [node v] (d + 1)
      have h := (((hopen.mul (leads_indentations (d + 1) _)).mul hfirst).mul hitems).mul
        (leads_listEnd frames _ d)
      simpa [edits, node, itemNodes] using h
  | obj ms ih =>
    intro b frames d hb hd
    have hopen : Leads (Reads n) {['{']} b ⟨frames, .member [], {}, []⟩ :=
      leads_sign .openMap (hb.step_openMap (Nat.lt_of_lt_of_le (by simp [Json.depth]) hd))
        fun _ ↦ rfl
    obtain ⟨hkeys, hinner⟩ := legible_obj_iff.mp hl
    have hms (m : String × Json) (hm : m ∈ ms) : ReadsEdits n m.2 :=
      ih m hm (integral_obj_iff.mp hi m hm) (hinner m hm)
    cases ms with
    | nil => exact hopen.mul (leads_closeMap frames [] rfl)
    | cons m ms =>
      obtain ⟨k, v⟩ := m
      obtain ⟨hk, hlength⟩ := hkeys (k, v) List.mem_cons_self
      simp only [Json.depth, membersDepth] at hd
      have hroom (key : Node) : depth (.member [] key :: frames) + v.depth ≤ Node.maxDepth := by
        simp only [depth, List.foldr_cons, weight] at hd ⊢
        omega
      have hkey := leads_key (n := n) hk hlength frames []
      have hfirst : ReadsEdits n v := hms (k, v) List.mem_cons_self
      have hmembers := leads_memberEdits (fun w hw ↦ hms w (List.mem_cons_of_mem _ hw))
        (fun w hw ↦ hkeys w (List.mem_cons_of_mem _ hw)) frames (by omega)
        [(.scalar ⟨k.toList, false, none⟩, node v)] (d + 1)
      have h := ((((hopen.mul (leads_indentations (d + 1) _)).mul hkey).mul
        (hfirst _ _ (d + 1) (.memberValue frames [] _) (hroom _))).mul hmembers).mul
        (leads_mapEnd frames _ d)
      simpa [edits, node, memberNodes] using h

end Builder

/-- Every edited form of a value is read as the value's node once its tabs are spaces. -/
theorem readNode?_of_mem_edits {v : Json} (hi : v.Integral) (hl : Legible v)
    (hd : v.depth ≤ Node.maxDepth) {s : List Char} {d : Nat} (hs : s ∈ edits d v) :
    readNode? (expandTabs s) = some (node v) := by
  have hend : Builder.Reads (node v) (Builder.behind (node v) []) [] :=
    ⟨fun _ ↦ trivial, [], lexes_nil, rfl⟩
  have hroom : Builder.depth [] + v.depth ≤ Node.maxDepth := by
    rwa [Builder.depth, List.foldr_nil, Nat.zero_add]
  have hread := Builder.readsEdits hi hl Builder.start [] d .root hroom s hs [] hend
  rw [List.append_nil] at hread
  obtain ⟨ts, hts, hn⟩ := hread.reads
  rw [readNode?, tokens?_of_lexes hts, Option.bind_some, hn]

theorem parseList?_of_mem_edits {vs : List Json} (hi : (Json.arr vs).Integral)
    (hl : Legible (.arr vs)) (hd : (Json.arr vs).depth ≤ Node.maxDepth) {s : List Char} {d : Nat}
    (hs : s ∈ edits d (.arr vs)) :
    parseList? (expandTabs s) = some (vs.map Json.canonicalize) := by
  rw [parseList?, readNode?_of_mem_edits hi hl hd hs, Option.bind_some, Node.json?_node hi hd]
  simp [Json.canonicalize, items?]

end Yaml

end ConfidentialPolicy

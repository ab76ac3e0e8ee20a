import ConfidentialPolicy.Files.Basic
import ConfidentialPolicy.Proofs.Checked

namespace ConfidentialPolicy.Files

open Checked

variable {f after : Files} {p q r : Place} {path content : String}

/-- Nothing but the file that a path leads to has changed, and that file has a new text. -/
structure Rewritten (path content : String) (before after : Files) : Prop where
  elsewhere : ∀ p, before.find path ≠ .ok p → after.node? p = before.node? p
  read_same : ∀ other, before.find other = before.find path → after.read other = .ok content
  read_other : ∀ other, before.find other ≠ before.find path →
    after.read other = before.read other

theorem not_isPrefixOf_here (h : f.node? p ≠ some .directory) : ¬ p.isPrefixOf f.here :=
  fun hp ↦ h (if_pos hp)

theorem walk_append (f : Files) (p : Place) (xs ys : List String) :
    f.walk p (xs ++ ys) = f.walk p xs >>= fun q ↦ f.walk q ys := by
  induction xs generalizing p with
  | nil => rfl
  | cons x xs ih =>
    simp only [List.cons_append, walk]
    cases f.node? p with
    | none => rfl
    | some n =>
      cases n with
      | text content => rfl
      | binary => rfl
      | directory =>
        dsimp only
        split
        · rfl
        · exact ih (step p x)

theorem walk_cons_eq_ok_iff {name : String} {names : List String} :
    f.walk p (name :: names) = .ok q ↔ f.node? p = some .directory ∧
      name.utf8ByteSize ≤ Path.maxName ∧ f.walk (step p name) names = .ok q := by
  rw [walk]
  cases f.node? p with
  | none => simp
  | some n =>
    cases n with
    | text content => simp
    | binary => simp
    | directory =>
      dsimp only
      split
      · next hlong => simp [Nat.not_le.mpr hlong]
      · next hlong => simp [Nat.le_of_not_lt hlong]

theorem walk_dot_eq_ok_iff : f.walk p ["."] = .ok q ↔ f.node? p = some .directory ∧ p = q := by
  have hshort : ".".utf8ByteSize ≤ Path.maxName := by decide
  rw [walk_cons_eq_ok_iff]
  simp [hshort, walk, Files.step]

/-- Names that are followed by a dot lead to a directory. -/
theorem walk_of_walk_dot {xs : List String} (h : f.walk p (xs ++ ["."]) = .ok q) :
    f.walk p xs = .ok q := by
  rw [walk_append] at h
  obtain ⟨r, hr, h⟩ := bind_eq_ok_iff.mp h
  obtain ⟨-, rfl⟩ := walk_dot_eq_ok_iff.mp h
  exact hr

/-- A path that can be written to leads to the place that is written. -/
theorem find_eq_of_target (h : f.target path = .ok p) : f.find path = .ok p := by
  unfold target at h
  split at h
  · cases h
  · cases h
  · next name names hfault hnames =>
    obtain ⟨directory, hdirectory, h⟩ := bind_eq_ok_iff.mp h
    split at h
    · cases h
    · next hplain =>
      have hslash : Path.endsInSlash path = false := by simp_all
      have hsplit : Path.names path = names.reverse ++ [name] := by
        rw [← List.reverse_reverse (Path.names path), hnames, List.reverse_cons]
      simp only [find, hfault, hslash, Bool.false_eq_true, if_false, List.append_nil, hsplit,
        walk_append]
      exact bind_eq_ok_iff.mpr ⟨directory, walk_of_walk_dot hdirectory, h⟩

theorem write_eq_ok (h : f.write path content = .ok after) :
    ∃ p, f.find path = .ok p ∧ f.node? p ≠ some .directory ∧ after = f.put p (.text content) := by
  obtain ⟨p, hp, h⟩ := bind_eq_ok_iff.mp h
  split at h
  · cases h
  · next hnode =>
    cases h
    exact ⟨p, find_eq_of_target hp, hnode, rfl⟩

/-- No name leads through a file, whatever the file holds. -/
theorem walk_put {n : Node} (hn : f.node? p = some n) (hfile : n ≠ .directory) (content : String)
    (q : Place) (names : List String) :
    (f.put p (.text content)).walk q names = f.walk q names := by
  have hput (q : Place) :=
    node?_put f p q (.text content) (not_isPrefixOf_here (by simp [hn, hfile]))
  induction names generalizing q with
  | nil => rfl
  | cons name names ih =>
    simp only [walk, hput, ih]
    by_cases hq : q = p
    · -- The file itself stops the walk before the write and after it.
      subst hq
      cases n with
      | text before => rw [if_pos rfl, hn]
      | binary => rw [if_pos rfl, hn]
      | directory => exact absurd rfl hfile
    · rw [if_neg hq]

theorem find_put {n : Node} (hn : f.node? p = some n) (hfile : n ≠ .directory) (content : String)
    (other : String) : (f.put p (.text content)).find other = f.find other := by
  simp only [find, walk_put hn hfile]
  rfl

theorem read_eq_ok_iff : f.read path = .ok content ↔
    ∃ p, f.find path = .ok p ∧ f.node? p = some (.text content) := by
  refine bind_eq_ok_iff.trans (exists_congr fun p ↦ and_congr_right fun _ ↦ ?_)
  split
  · next h => simp [h]
  · next h => simp [h]
  · next h => simp [h]
  · next before h => simp [h]

theorem read_congr (hfind : after.find path = f.find path)
    (hnode : ∀ p, f.find path = .ok p → after.node? p = f.node? p) :
    after.read path = f.read path := by
  unfold read
  rw [hfind]
  cases h : f.find path with
  | error fault => rfl
  | ok p =>
    simp only [bind, Except.bind, hnode p h]

/-- What is written to a file is read from it, and everything else is read as before. -/
theorem rewritten_write {old : String} (hr : f.read path = .ok old)
    (hw : f.write path content = .ok after) : Rewritten path content f after := by
  obtain ⟨p, hp, hnode⟩ := read_eq_ok_iff.mp hr
  obtain ⟨q, hq, -, rfl⟩ := write_eq_ok hw
  obtain rfl : p = q := by simpa [hp] using hq
  have hput (q : Place) := node?_put f p q (.text content) (not_isPrefixOf_here (by simp [hnode]))
  have helsewhere (q : Place) (h : f.find path ≠ .ok q) :
      (f.put p (.text content)).node? q = f.node? q := by
    rw [hput, if_neg]
    rintro rfl
    exact h hp
  have hfind := find_put hnode nofun content
  refine ⟨helsewhere, fun other ho ↦ ?_, fun other ho ↦ ?_⟩
  · exact read_eq_ok_iff.mpr ⟨p, by rw [hfind, ho, hp], by rw [hput, if_pos rfl]⟩
  · exact read_congr (hfind other) fun q hq ↦ helsewhere q fun h ↦ ho (hq.trans h.symm)

def Rooted (f : Files) (p : Place) : Prop := ∀ q, q <+: p → q ≠ p → f.node? q = some .directory

theorem node?_start (f : Files) (path : String) : f.node? (f.start path) = some .directory := by
  refine if_pos ?_
  unfold start
  split
  · exact List.isPrefixOf_iff_prefix.mpr List.nil_prefix
  · exact List.isPrefixOf_iff_prefix.mpr (List.prefix_refl _)

theorem rooted_start (f : Files) (path : String) : f.Rooted (f.start path) := by
  intro q hq hne
  unfold start at hq hne
  split at hq
  · exact absurd (List.prefix_nil.mp hq) (by simp_all)
  · exact if_pos (List.isPrefixOf_iff_prefix.mpr hq)

theorem Rooted.node?_prefix (h : f.Rooted p) (hp : f.node? p = some .directory) (hq : q <+: p) :
    f.node? q = some .directory := by
  by_cases hqp : q = p
  · exact hqp ▸ hp
  · exact h q hq hqp

/-- A step leads from a directory into it or to the directory above. -/
theorem Rooted.step (h : f.Rooted p) (hp : f.node? p = some .directory) (name : String) :
    f.Rooted (step p name) := by
  intro q hq hne
  unfold Files.step at hq hne
  split at hq
  · exact h.node?_prefix hp hq
  · split at hq
    · exact h.node?_prefix hp (hq.trans (List.dropLast_prefix p))
    · rcases List.prefix_concat_iff.mp hq with rfl | hq
      · simp_all
      · exact h.node?_prefix hp hq

theorem Rooted.walk (h : f.Rooted p) {names : List String} (hw : f.walk p names = .ok q) :
    f.Rooted q := by
  induction names generalizing p with
  | nil =>
    cases hw
    exact h
  | cons name names ih =>
    obtain ⟨hp, -, hw⟩ := walk_cons_eq_ok_iff.mp hw
    exact ih (h.step hp name) hw

theorem Rooted.ne_dots (h : f.Rooted p) {name : String} (hw : f.walk p [name] = .ok q)
    (hfile : f.node? q ≠ some .directory) : name ≠ "." ∧ name ≠ ".." := by
  obtain ⟨hp, -, hstep⟩ := walk_cons_eq_ok_iff.mp hw
  cases hstep
  refine ⟨?_, ?_⟩ <;> rintro rfl
  · exact hfile hp
  · exact hfile (h.node?_prefix hp (List.dropLast_prefix p))

/-- A path that leads to a file, or to where one could be, can be written to. -/
theorem target_eq_of_find (h : f.find path = .ok p) (hfile : f.node? p ≠ some .directory) :
    f.target path = .ok p := by
  unfold find at h
  split at h
  · cases h
  · next hfault =>
    rw [walk_append] at h
    obtain ⟨e, he, hend⟩ := bind_eq_ok_iff.mp h
    -- A path that ends in a slash leads to a directory.
    have hslash : Path.endsInSlash path = false := by
      by_contra hslash
      rw [if_pos (by simpa using hslash), walk_dot_eq_ok_iff] at hend
      exact hfile (hend.2 ▸ hend.1)
    obtain rfl : e = p := by simpa [hslash, walk] using hend
    cases hnames : (Path.names path).reverse with
    | nil =>
      rw [List.reverse_eq_nil_iff.mp hnames] at he
      cases he
      exact absurd (node?_start f path) hfile
    | cons name names =>
      have hsplit : Path.names path = names.reverse ++ [name] := by
        rw [← List.reverse_reverse (Path.names path), hnames, List.reverse_cons]
      rw [hsplit, walk_append] at he
      obtain ⟨d, hd, hname⟩ := bind_eq_ok_iff.mp he
      have hdir : f.node? d = some .directory := (walk_cons_eq_ok_iff.mp hname).1
      have hdot : f.walk (f.start path) (names.reverse ++ ["."]) = .ok d := by
        rw [walk_append]
        exact bind_eq_ok_iff.mpr ⟨d, hd, walk_dot_eq_ok_iff.mpr ⟨hdir, rfl⟩⟩
      obtain ⟨hne, hup⟩ := ((rooted_start f path).walk hd).ne_dots hname hfile
      rw [target, hfault, hnames]
      refine bind_eq_ok_iff.mpr ⟨d, hdot, ?_⟩
      simpa [hslash, hne, hup] using hname

/-- A file that can be read can be written. -/
theorem exists_write_of_read {old : String} (h : f.read path = .ok old) (content : String) :
    ∃ after, f.write path content = .ok after := by
  obtain ⟨p, hfind, hnode⟩ := read_eq_ok_iff.mp h
  have hfile : f.node? p ≠ some .directory := by simp [hnode]
  have htarget := target_eq_of_find hfind hfile
  exact ⟨f.put p (.text content), bind_eq_ok_iff.mpr ⟨p, htarget, if_neg hfile⟩⟩

end ConfidentialPolicy.Files

import ConfidentialPolicy.PolicyText.Declaration
import ConfidentialPolicy.Proofs.Fragment.Import
import ConfidentialPolicy.Proofs.PolicyText.RoundTrip

namespace ConfidentialPolicy

open Json PolicyText

namespace PolicyText

/-- No version is looked for inside of a line. -/
theorem firstSvn?_append_break {line rest : List Char} (h : '\n' ∉ line) {atLineStart : Bool}
    (hs : atLineStart = true → svnDigits? (line ++ '\n' :: rest) = none) :
    firstSvn? atLineStart (line ++ '\n' :: rest) = firstSvn? true rest := by
  induction line generalizing atLineStart with
  | nil => cases atLineStart with
    | false => rfl
    | true =>
      rw [List.nil_append] at hs ⊢
      simp only [firstSvn?, if_true, hs]
      rfl
  | cons c line ih =>
    have hc : decide (c = '\n') = false := decide_eq_false fun hc ↦ h (hc ▸ List.mem_cons_self)
    have hstep : firstSvn? atLineStart (c :: line ++ '\n' :: rest) =
        firstSvn? false (line ++ '\n' :: rest) := by
      rw [List.cons_append] at hs ⊢
      cases atLineStart with
      | false => simp only [firstSvn?, Bool.false_eq_true, if_false, hc]
      | true => simp only [firstSvn?, if_true, hs, hc]
    rw [hstep]
    exact ih (fun hline ↦ h (List.mem_cons_of_mem c hline)) nofun

def packageWord : List Char := "package ".toList

def svnWord : List Char := "svn := \"".toList

def frameworkVersionLine : List Char := "framework_version := \"0.2.3\"".toList

theorem svnDigits?_svnWord {digits : List Char} (hne : digits ≠ [])
    (hdigits : ∀ c ∈ digits, Text.isDigit c = true) (rest : List Char) :
    svnDigits? (svnWord ++ (digits ++ '"' :: rest)) = some digits := by
  have htake : (digits ++ '"' :: rest).takeWhile Text.isDigit = digits := by
    rw [List.takeWhile_append_of_pos hdigits, List.takeWhile_cons_of_neg (by decide),
      List.append_nil]
  have hread : svnDigits? (svnWord ++ (digits ++ '"' :: rest)) =
      if (digits ++ '"' :: rest).takeWhile Text.isDigit = [] then none
      else some ((digits ++ '"' :: rest).takeWhile Text.isDigit) := rfl
  rw [hread, htake, if_neg hne]

theorem svnDigits?_cons_break (s : List Char) : svnDigits? ('\n' :: s) = svnDigits? s := rfl

theorem firstSvn?_of_svnDigits? {s digits : List Char} (h : svnDigits? s = some digits) :
    firstSvn? true s = some digits := by
  cases s with
  | nil => cases h
  | cons c s => simp only [firstSvn?, if_true, h]

def fragmentHeaderLines (package digits : List Char) : List Char :=
  packageWord ++ package ++ '\n' :: '\n' :: (svnWord ++ (digits ++ '"' :: '\n' ::
    (frameworkVersionLine ++ ['\n'])))

variable {package digits : List Char}

theorem firstSvn?_fragmentHeaderLines (h : '\n' ∉ package) (hne : digits ≠ [])
    (hdigits : ∀ c ∈ digits, Text.isDigit c = true) (rest : List Char) :
    firstSvn? true (fragmentHeaderLines package digits ++ rest) = some digits := by
  have hline : '\n' ∉ packageWord ++ package :=
    List.mem_append.not.mpr (not_or.mpr ⟨by decide, h⟩)
  have hnone (s : List Char) : svnDigits? (packageWord ++ package ++ s) = none := rfl
  rw [fragmentHeaderLines, List.append_assoc, List.cons_append,
    firstSvn?_append_break hline fun _ ↦ hnone _]
  -- The line break in front of the version counts as a blank.
  apply firstSvn?_of_svnDigits?
  rw [List.cons_append, svnDigits?_cons_break, List.append_assoc, List.append_assoc]
  exact svnDigits?_svnWord hne hdigits _

/-- The header of a fragment text holds a marker only where its package does. -/
theorem occurs_fragmentHeaderLines {marker : String}
    (hm : marker = containersMarker ∨ marker = fragmentsMarker)
    (h : Text.occurs marker.toList package = false)
    (hdigits : ∀ c ∈ digits, Text.isDigit c = true) :
    Text.occurs marker.toList (fragmentHeaderLines package digits) = false := by
  have hne : marker.toList ≠ [] := by rcases hm with rfl | rfl <;> decide
  have hbreak : '\n' ∉ marker.toList := by rcases hm with rfl | rfl <;> decide
  have hpackage : Text.afterFirst? marker.toList (packageWord ++ package) = none := by
    have hskip : Text.afterFirst? marker.toList (packageWord ++ package) =
        Text.afterFirst? marker.toList package := by rcases hm with rfl | rfl <;> rfl
    rw [hskip]
    exact Text.occurs_eq_false_iff.mp h
  have hsvn : Text.afterFirst? marker.toList (svnWord ++ (digits ++ ['"'])) = none := by
    have ha : 'a' ∈ marker.toList := by rcases hm with rfl | rfl <;> decide
    have hword : 'a' ∉ svnWord := by decide
    have hdigit : 'a' ∉ digits := fun hc ↦ absurd (hdigits 'a' hc) (by decide)
    refine Text.afterFirst?_eq_none_of_not_mem ha ?_
    simp [hword, hdigit]
  have hversion : Text.afterFirst? marker.toList frameworkVersionLine = none := by
    rcases hm with rfl | rfl <;> decide +kernel
  have hempty : Text.afterFirst? marker.toList [] = none := by rcases hm with rfl | rfl <;> rfl
  -- No marker holds a line break, so it is enough to look through the header line by line.
  have hsplit : fragmentHeaderLines package digits = packageWord ++ package ++
      '\n' :: ([] ++ '\n' :: (svnWord ++ (digits ++ ['"']) ++
        '\n' :: (frameworkVersionLine ++ '\n' :: []))) := by
    simp only [fragmentHeaderLines, List.append_assoc, List.cons_append, List.nil_append]
  rw [Text.occurs_eq_false_iff, hsplit, Text.afterFirst?_append_cons hne hpackage hbreak,
    Text.afterFirst?_append_cons hne hempty hbreak, Text.afterFirst?_append_cons hne hsvn hbreak,
    Text.afterFirst?_append_cons hne hversion hbreak, hempty]

end PolicyText

namespace Document

variable {d : Document} {package text : String} {svn : UInt64} {omitId : Bool}

theorem exists_fragmentText (d : Document) (hne : package ≠ "") (hr : package ≠ reservedNamespace)
    (svn : UInt64) (omitId : Bool) : ∃ text, d.fragmentText package svn omitId = .ok text := by
  rw [fragmentText, fragmentTextOf, if_neg hne, if_neg hr]
  exact ⟨_, rfl⟩

theorem toList_fragmentHeader (package : String) (svn : UInt64) :
    (fragmentHeader package svn).toList =
      fragmentHeaderLines package.toList (Nat.toDigits 10 svn.toNat) ++ ['\n'] := by
  have hheader : fragmentHeader package svn = "package " ++ (package ++ ("\n\nsvn := \"" ++
      (Text.decimal svn.toNat ++ "\"\nframework_version := \"0.2.3\"\n\n"))) := by
    simp only [fragmentHeader, String.append_assoc]
    rfl
  have hpackage : "package ".toList = packageWord := rfl
  have hsvn : "\n\nsvn := \"".toList = '\n' :: '\n' :: svnWord := rfl
  have hversion : "\"\nframework_version := \"0.2.3\"\n\n".toList =
      '"' :: '\n' :: (frameworkVersionLine ++ ['\n', '\n']) := rfl
  rw [hheader, String.toList_append, String.toList_append, String.toList_append,
    String.toList_append, hpackage, hsvn, hversion, Text.decimal, String.toList_ofList]
  simp only [fragmentHeaderLines, List.append_assoc, List.cons_append, List.nil_append]

theorem toList_fragmentText (h : d.Built) (ht : d.fragmentText package svn omitId = .ok text) :
    text.toList = listsText (fragmentHeaderLines package.toList (Nat.toDigits 10 svn.toNat))
      (d.fragments.map FragmentImport.toJson) (d.records omitId) .pretty ['\n'] := by
  have hcontainers : (d.containersJson omitId).pretty.toList =
      write .pretty 0 (.arr (d.records omitId)) :=
    toList_render (h.plain_containersJson omitId).canonical .pretty
  rw [fragmentText, fragmentTextOf] at ht
  split at ht
  · cases ht
  · split at ht
    · cases ht
    · have htext := Except.ok.inj ht
      simp only [← htext, String.toList_append, toList_fragmentHeader,
        toList_pretty_fragmentsJson, hcontainers, listsText, List.append_assoc, List.cons_append,
        List.nil_append]
      rfl

theorem svn?_fragmentText (h : d.Built) (hb : '\n' ∉ package.toList)
    (ht : d.fragmentText package svn omitId = .ok text) : svn? text = some svn := by
  have hfirst := firstSvn?_fragmentHeaderLines hb Nat.toDigits_ne_nil
    (fun _ ↦ Text.isDigit_of_mem_toDigits (n := svn.toNat))
  rw [svn?, toList_fragmentText h ht, listsText, hfirst, Option.bind_some]
  exact Text.wordOfDigits?_toDigits svn

theorem containers_fragmentText (h : d.Built) (hb : ' ' ∉ package.toList)
    (hm : Text.occurs containersMarker.toList d.fragmentsJson.pretty.toList = false)
    (ht : d.fragmentText package svn omitId = .ok text) :
    PolicyText.containers text = .ok (d.records omitId) := by
  rw [toList_pretty_fragmentsJson] at hm
  have hpackage : Text.occurs containersMarker.toList package.toList = false :=
    Text.occurs_eq_false_iff.mpr (Text.afterFirst?_eq_none_of_not_mem (by decide) hb)
  have hheader := occurs_fragmentHeaderLines (.inl rfl) hpackage
    fun _ ↦ Text.isDigit_of_mem_toDigits (n := svn.toNat)
  exact containers_listsText (toList_fragmentText h ht) hheader hm
    ((h.plain_containersJson omitId).mono (by decide))

/-- Scanning the text of a fragment gives back the records and the imports of the document. -/
theorem scan_fragmentText (h : d.Built)
    (hc : Text.occurs containersMarker.toList package.toList = false)
    (hf : Text.occurs fragmentsMarker.toList package.toList = false)
    (hm : Text.occurs containersMarker.toList d.fragmentsJson.pretty.toList = false)
    (ht : d.fragmentText package svn omitId = .ok text) :
    containersAndFragments text = .ok (d.records omitId, d.fragments.map FragmentImport.toJson) := by
  rw [toList_pretty_fragmentsJson] at hm
  have htext := toList_fragmentText h ht
  have hdigits : ∀ c ∈ Nat.toDigits 10 svn.toNat, Text.isDigit c = true :=
    fun _ ↦ Text.isDigit_of_mem_toDigits
  have hcs := containers_listsText htext (occurs_fragmentHeaderLines (.inl rfl) hc hdigits) hm
    ((h.plain_containersJson omitId).mono (by decide))
  have hfs := fragments_listsText htext (occurs_fragmentHeaderLines (.inr rfl) hf hdigits)
    ((FragmentImport.plain_listToJson d.fragments).mono (by decide))
  rw [containersAndFragments, hcs, hfs]
  rfl

end Document

end ConfidentialPolicy

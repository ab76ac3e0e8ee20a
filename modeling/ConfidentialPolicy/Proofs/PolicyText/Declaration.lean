import ConfidentialPolicy.Proofs.PolicyText.FragmentText
import ConfidentialPolicy.Proofs.Text.Blank

namespace ConfidentialPolicy

open Json PolicyText

namespace PolicyText

structure IsPackageName (package : String) : Prop where
  oneLine : '\n' ∉ package.toList
  trimmed : Text.trim package.toList = package.toList

instance (package : String) : Decidable (IsPackageName package) :=
  decidable_of_iff ('\n' ∉ package.toList ∧ Text.trim package.toList = package.toList)
    ⟨fun h ↦ ⟨h.1, h.2⟩, fun h ↦ ⟨h.oneLine, h.trimmed⟩⟩

variable {line package rest : List Char}

theorem exists_of_packageOf? (h : packageOf? line = some package) :
    (∀ c ∈ package, c ∈ line) ∧ Text.trim package = package := by
  obtain ⟨rest, hrest, rfl⟩ := Option.map_eq_some_iff.mp h
  have hline := List.append_eq_of_isPrefixOf?_eq_some hrest
  refine ⟨fun c hc ↦ Text.mem_of_mem_trim (s := line) ?_, Text.trim_trim rest⟩
  rw [← hline]
  exact List.mem_append_right _ (Text.mem_of_mem_trim hc)

theorem packageOf?_packageWord (hne : package ≠ []) (h : Text.trim package = package) :
    packageOf? (packageWord ++ package) = some package := by
  have hend := Text.trimEnd_eq_self h
  have htrim : Text.trim (packageWord ++ package) = packageWord ++ package := by
    have hstart : Text.trimStart (packageWord ++ package) = packageWord ++ package := rfl
    rw [Text.trim, hstart, Text.trimEnd_append (by rwa [hend]), hend]
  have hword : "package ".toList = packageWord := rfl
  rw [packageOf?, htrim, hword, Text.isPrefixOf?_append_self, Option.map_some, h]

/-- Whatever a text declares as its package is one line without blanks at its ends. -/
theorem isPackageName_of_namespace? {text package : String} (h : namespace? text = some package) :
    IsPackageName package := by
  obtain ⟨found, hfound, rfl⟩ := Option.map_eq_some_iff.mp h
  obtain ⟨line, hline, hpackage⟩ := List.exists_of_findSome?_eq_some hfound
  obtain ⟨hmem, htrim⟩ := exists_of_packageOf? hpackage
  refine ⟨fun hbreak ↦ ?_, ?_⟩
  · rw [String.toList_ofList] at hbreak
    exact Text.not_mem_of_mem_pieces hline (hmem _ hbreak)
  · rw [String.toList_ofList, htrim]

theorem namespace?_of_packageWord {text package : String}
    (ht : text.toList = packageWord ++ package.toList ++ '\n' :: rest) (hne : package ≠ "")
    (h : IsPackageName package) : namespace? text = some package := by
  have hline : '\n' ∉ packageWord ++ package.toList :=
    List.mem_append.not.mpr (not_or.mpr ⟨by decide, h.oneLine⟩)
  have hchars : package.toList ≠ [] := fun he ↦ hne (String.toList_eq_nil_iff.mp he)
  rw [namespace?, ht, Text.lines_append_break hline, List.findSome?_cons,
    packageOf?_packageWord hchars h.trimmed, Option.map_some, String.ofList_toList]

end PolicyText

namespace Document

/-- A text declares this package and this version, and lists the records and the imports of a
document. -/
structure Declares (text package : String) (svn : UInt64) (d : Document) (omitId : Bool) :
    Prop where
  package : namespace? text = some package
  notReserved : namespace? text ≠ some reservedNamespace
  svn : svn? text = some svn
  lists : ∃ cs fs, containersAndFragments text = .ok (cs, fs) ∧ d.containersJson omitId = .arr cs ∧
    d.fragmentsJson = .arr fs

variable {d : Document} {package text : String} {svn : UInt64} {omitId : Bool}

theorem package_ne_of_fragmentText (ht : d.fragmentText package svn omitId = .ok text) :
    package ≠ "" ∧ package ≠ reservedNamespace := by
  rw [fragmentText, fragmentTextOf] at ht
  split at ht
  · cases ht
  · next hne =>
    split at ht
    · cases ht
    · next hreserved => exact ⟨hne, hreserved⟩

theorem namespace?_fragmentText (h : d.Built) (hp : IsPackageName package)
    (ht : d.fragmentText package svn omitId = .ok text) : namespace? text = some package := by
  obtain ⟨rest, htext⟩ : ∃ rest, text.toList = packageWord ++ package.toList ++ '\n' :: rest := by
    rw [toList_fragmentText h ht, listsText, fragmentHeaderLines,
      List.append_assoc (packageWord ++ package.toList), List.cons_append]
    exact ⟨_, rfl⟩
  exact namespace?_of_packageWord htext (package_ne_of_fragmentText ht).1 hp

/-- The text of a fragment says what it was asked to say just where its package is one line without
blanks at its ends. -/
theorem declares_fragmentText_iff (h : d.Built)
    (hc : Text.occurs containersMarker.toList package.toList = false)
    (hf : Text.occurs fragmentsMarker.toList package.toList = false)
    (hm : Text.occurs containersMarker.toList d.fragmentsJson.pretty.toList = false)
    (ht : d.fragmentText package svn omitId = .ok text) :
    Declares text package svn d omitId ↔ IsPackageName package := by
  constructor
  · exact fun hd ↦ isPackageName_of_namespace? hd.package
  · intro hp
    have hpackage := namespace?_fragmentText h hp ht
    refine ⟨hpackage, ?_, svn?_fragmentText h hp.oneLine ht, ?_⟩
    · rw [hpackage]
      exact fun he ↦ (package_ne_of_fragmentText ht).2 (Option.some.inj he)
    · exact ⟨_, _, scan_fragmentText h hc hf hm ht, rfl, rfl⟩

def decoyPackage : String := "package policy svn := \"9\""

theorem declares_decoyPackage : ∃ text,
    hostileDocument.fragmentText decoyPackage 18446744073709551615 false = .ok text ∧
    Declares text decoyPackage 18446744073709551615 hostileDocument false := by
  have hc : Text.occurs containersMarker.toList decoyPackage.toList = false := rfl
  have hf : Text.occurs fragmentsMarker.toList decoyPackage.toList = false := rfl
  have hm : Text.occurs containersMarker.toList hostileDocument.fragmentsJson.pretty.toList =
      false := by
    decide +kernel
  have hp : IsPackageName decoyPackage := by decide
  have hne : decoyPackage ≠ "" := by decide
  have hreserved : decoyPackage ≠ reservedNamespace := by decide
  obtain ⟨text, ht⟩ := exists_fragmentText hostileDocument hne hreserved 18446744073709551615 false
  exact ⟨text, ht, (declares_fragmentText_iff built_hostileDocument hc hf hm ht).mpr hp⟩

def bareDocument : Document := ⟨[], [], none⟩

def markedDocument : Document := ⟨[], [⟨"containers := [1]", "issuer", 0, []⟩], none⟩

/-- A blank in front of it takes the reserved package past the check, a line break brings a second
version in, and a marker in a package or in an import brings a second list in. -/
theorem exists_misread_fragmentText :
    (∃ text, bareDocument.fragmentText " policy" 3 false = .ok text ∧
      PolicyText.namespace? text = some reservedNamespace) ∧
    (∃ text, bareDocument.fragmentText "app\nsvn := \"9\"" 3 false = .ok text ∧
      svn? text = some 9) ∧
    (∃ text, bareDocument.fragmentText "app containers := [1]" 3 false = .ok text ∧
      PolicyText.containers text = .ok [.num (.int 1)] ∧ bareDocument.records false = []) ∧
    ∃ text, markedDocument.fragmentText "app" 3 false = .ok text ∧
      PolicyText.containers text = .ok [.num (.int 1)] ∧ markedDocument.records false = [] := by
  refine ⟨⟨_, rfl, ?_⟩, ⟨_, rfl, ?_⟩, ⟨_, rfl, ?_, rfl⟩, _, rfl, ?_, rfl⟩ <;> decide +kernel

end Document

end ConfidentialPolicy

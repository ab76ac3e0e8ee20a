import ConfidentialPolicy.Fragment.Publish
import ConfidentialPolicy.Proofs.Coverage
import ConfidentialPolicy.Proofs.Fragment.Trust
import ConfidentialPolicy.Proofs.PolicyText.FragmentText

namespace ConfidentialPolicy

open Checked

theorem generateImport_result {signer : Signer} {text chain issuer : String} {svn : UInt64}
    (hsvn : PolicyText.svn? text = some svn) (hissuer : signer.createIssuer chain = .ok issuer)
    (feed : String) : (generateImport signer text feed chain none).result =
      .ok ⟨feed, issuer, svn, FragmentImport.allParts⟩ := by
  simp only [generateImport, Option.none_or, hsvn, hissuer]
  rfl

theorem recordId?_record (c : Container) : recordId? (c.record false) = some c.id := by
  have hget : KeyMap.get? c.members "id" = some (.str c.id) := by
    simp [Container.members, KeyMap.get?_cons]
  simp only [recordId?, Container.record, Json.get?, Bool.false_eq_true, if_false, hget]
  rfl

namespace Resolution

def AttachesOnly (d : Discovery) (f : FoundFragment) (image : String) : Prop :=
  ∀ other, d.attached other = .ok (if other = image then [f] else [])

variable {d : Discovery} {f : FoundFragment} {image : String}

theorem AttachesOnly.askImage_other (h : AttachesOnly d f image) {other : String}
    (ho : other ≠ image) (p : Progress) :
    p.askImage d other = { p with calls := p.calls ++ [.image other] } := by
  rw [Progress.askImage, h other, if_neg ho]
  rfl

theorem AttachesOnly.foldl_askImage_others (h : AttachesOnly d f image) {others : List String}
    (ho : image ∉ others) (p : Progress) : others.foldl (Progress.askImage d) p =
      { p with calls := p.calls ++ others.map .image } := by
  induction others generalizing p with
  | nil => simp
  | cons other others ih =>
    have hne : other ≠ image := fun he ↦ ho (he ▸ List.mem_cons_self)
    rw [List.foldl_cons, h.askImage_other hne, ih fun hm ↦ ho (List.mem_cons_of_mem other hm)]
    simp

theorem AttachesOnly.askImage {i : FragmentImport} {svn : UInt64} (h : AttachesOnly d f image)
    (hfeed : i.feed = f.feed) (hsvn : PolicyText.svn? f.text = some svn)
    (hle : i.minimumSvn ≤ svn) : (Progress.start [i]).askImage d image =
      ⟨[], [f.text], [.accepted f.feed svn], [.image image]⟩ := by
  have hjudge : judge [i] f = .accepted f.feed svn := by
    simp [judge, hfeed, hsvn, UInt64.not_lt.mpr hle]
  rw [Progress.askImage, h image, if_pos rfl]
  simp [Progress.answer, Progress.start, Progress.take, hjudge, hfeed]

theorem images_cons (c : Container) (cs : List Container) :
    ∃ others, Container.images (c :: cs) = c.image :: others ∧ c.image ∉ others := by
  refine ⟨_, List.eraseDups_cons, ?_⟩
  simp

/-- An import admits the fragment, which is attached to the first image; then nothing is left to
ask for. -/
theorem AttachesOnly.progress {i : FragmentImport} {svn : UInt64} {c : Container}
    (h : AttachesOnly d f c.image) (hfeed : i.feed = f.feed)
    (hsvn : PolicyText.svn? f.text = some svn) (hle : i.minimumSvn ≤ svn) (cs : List Container) :
    ∃ calls, Resolution.progress d (c :: cs) [i] =
      ⟨[], [f.text], [.accepted f.feed svn], calls⟩ := by
  obtain ⟨others, himages, hothers⟩ := images_cons c cs
  refine ⟨[.image c.image] ++ others.map .image, ?_⟩
  rw [Resolution.progress, himages, List.foldl_cons, h.askImage hfeed hsvn hle,
    h.foldl_askImage_others hothers]
  rfl

/-- A resolution in which one fragment covers all containers. -/
structure CoversAll (r : Resolution) (containers : List Container) (feed : String)
    (svn : UInt64) : Prop where
  inline : r.inline = []
  covered : r.covered = containers
  decisions : r.decisions = [.accepted feed svn]

theorem AttachesOnly.coversAll {i : FragmentImport} {svn : UInt64} {c : Container}
    {cs : List Container} {records : List Json} (h : AttachesOnly d f c.image)
    (hfeed : i.feed = f.feed) (hsvn : PolicyText.svn? f.text = some svn)
    (hle : i.minimumSvn ≤ svn) (hrecords : PolicyText.containers f.text = .ok records)
    (hids : ∀ x ∈ c :: cs, x.id ∈ records.filterMap recordId?) :
    CoversAll (resolve d (c :: cs) [i]) (c :: cs) f.feed svn := by
  obtain ⟨calls, hprogress⟩ := h.progress hfeed hsvn hle cs
  have hrecordsOf : recordsOf f.text = (records, []) := by rw [recordsOf, hrecords]
  rw [resolve_eq, hprogress]
  simp only [List.flatMap_singleton, hrecordsOf]
  refine ⟨?_, ?_, rfl⟩
  · exact List.filter_eq_nil_iff.mpr fun x hx ↦ by simpa using hids x hx
  · exact List.filter_eq_self.mpr fun x hx ↦ by simpa using hids x hx

end Resolution

namespace Compiler

open Resolution (AttachesOnly CoversAll)

/-- Whatever layers do not change survives filling them in. -/
theorem map_of_populate {k : Compiler} {α : Type} {g : Container → α} {cs ds : List Container}
    (h : cs.mapM k.populate = .ok ds) (hg : ∀ c layers, g (c.withLayers layers) = g c) :
    ds.map g = cs.map g := by
  have haligned := populate_aligned h
  clear h
  induction haligned with
  | nil => rfl
  | @cons x y xs ys hxy _ ih =>
    have hy : g y = g x := by rw [hxy, hg]
    rw [List.map_cons, List.map_cons, hy, ih]

theorem filterMap_recordId?_records {d : Document} (h : d.pause = none) :
    (d.records false).filterMap recordId? = d.containers.map (·.id) := by
  rw [Document.records, h]
  simp [List.filterMap_map, recordId?_record]

/-- The fragment of a document covers all containers with the ids of the document. -/
theorem coversAll_document {d : Discovery} {doc : Document} {text feed issuer : String}
    {svn : UInt64} {c : Container} {cs : List Container} (hd : AttachesOnly d ⟨feed, text⟩ c.image)
    (hsvn : PolicyText.svn? text = some svn)
    (hrecords : PolicyText.containers text = .ok (doc.records false)) (hpause : doc.pause = none)
    (hids : (c :: cs).map (·.id) = doc.containers.map (·.id)) :
    CoversAll (Resolution.resolve d (c :: cs) [⟨feed, issuer, svn, FragmentImport.allParts⟩])
      (c :: cs) feed svn := by
  refine hd.coversAll rfl hsvn (UInt64.le_refl svn) hrecords fun x hx ↦ ?_
  rw [filterMap_recordId?_records hpause, ← hids]
  exact List.mem_map_of_mem hx

/-- A fragment that is compiled, published and imported at its version covers its containers. -/
theorem exists_published (k : Compiler) {input : PolicyInput} {doc : Document} {signer : Signer}
    {package chain issuer : String} (h : (k.compileFragment input).result = .ok doc)
    (hne : input.containers ≠ [])
    (hm : Text.occurs PolicyText.containersMarker.toList
      (FragmentImport.listToJson (input.fragments.getD [])).pretty.toList = false)
    (hpackage : package ≠ "") (hblank : ∀ c ∈ package.toList, Text.isBlank c = false)
    (hreserved : package ≠ Document.reservedNamespace)
    (hissuer : signer.createIssuer chain = .ok issuer) (svn : UInt64) (feed : String) :
    ∃ text i first rest, doc.fragmentText package svn false = .ok text ∧
      (generateImport signer text feed chain none).result = .ok i ∧ i.minimumSvn = svn ∧
      k.buildContainers input = .ok (first :: rest) ∧
      ∀ d, AttachesOnly d ⟨feed, text⟩ first.image →
        CoversAll (Resolution.resolve d (first :: rest) [i]) (first :: rest) feed svn ∧
        CoversAll (Resolution.resolve d doc.containers [i]) doc.containers feed svn := by
  have hbuilt := built_of_compileAll h
  obtain ⟨declared, hdeclared, filled, hfilled, rfl⟩ := compileAll_eq_ok_iff.mp h
  obtain ⟨text, htext⟩ := Document.exists_fragmentText
    ⟨filled, input.fragments.getD [], none⟩ hpackage hreserved svn false
  have hbreak : '\n' ∉ package.toList := fun hc ↦ absurd (hblank _ hc) (by decide)
  have hspace : ' ' ∉ package.toList := fun hc ↦ absurd (hblank _ hc) (by decide)
  have hsvn := Document.svn?_fragmentText hbuilt hbreak htext
  have hrecords := Document.containers_fragmentText hbuilt hspace hm htext
  -- Layers change neither ids nor images, so the text covers the containers as declared too.
  have hids : filled.map (·.id) = declared.map (·.id) := map_of_populate hfilled fun _ _ ↦ rfl
  have himages : filled.map (·.image) = declared.map (·.image) :=
    map_of_populate hfilled fun _ _ ↦ rfl
  cases declared with
  | nil =>
    have hnil := (mapM_eq_ok_iff.mp hdeclared).length_eq
    exact absurd (List.length_eq_zero_iff.mp hnil) hne
  | cons first rest =>
    have himport := generateImport_result hsvn hissuer feed
    refine ⟨text, _, first, rest, htext, himport, rfl, hdeclared, fun d hd ↦ ?_⟩
    refine ⟨coversAll_document hd hsvn hrecords rfl hids.symm, ?_⟩
    cases filled with
    | nil => cases hids
    | cons c cs =>
      have himage : c.image = first.image := (List.cons.inj himages).1
      exact coversAll_document (himage ▸ hd) hsvn hrecords rfl rfl

def decoyInput : PolicyInput where
  version := none
  containers := ["\nsvn := \"3\"\n", "]\ncontainers := [\n"].map fun id ↦ ⟨none, .obj [
    ("id", .str id), ("containerImage", .str "image:1"), ("environmentVariables", .arr []),
    ("command", .arr [.str "svn := \"5\""])], .plain⟩
  fragments := some [⟨"svn := \"7\"", "\nsvn := 7\n", 7, ["]"]⟩]

def namingSigner : Signer where
  createIssuer chain := .ok chain
  sign request := .ok request.fragmentPath

def attaching (f : FoundFragment) (image : String) : Discovery where
  attached other := .ok (if other = image then [f] else [])
  standalone _ := .error (.image "offline")

theorem published_decoyInput : ∃ doc,
    (layeredCompiler.compileFragment decoyInput).result = .ok doc ∧
    ∃ text i first rest, doc.fragmentText "svn:=1" 18446744073709551615 false = .ok text ∧
      (generateImport namingSigner text "feed" "chain" none).result = .ok i ∧
      i.minimumSvn = 18446744073709551615 ∧
      layeredCompiler.buildContainers decoyInput = .ok (first :: rest) ∧
      CoversAll (Resolution.resolve (attaching ⟨"feed", text⟩ first.image) (first :: rest) [i])
        (first :: rest) "feed" 18446744073709551615 ∧
      CoversAll (Resolution.resolve (attaching ⟨"feed", text⟩ first.image) doc.containers [i])
        doc.containers "feed" 18446744073709551615 := by
  have h : (layeredCompiler.compileFragment decoyInput).result = .ok _ := rfl
  have hm : Text.occurs PolicyText.containersMarker.toList
      (FragmentImport.listToJson (decoyInput.fragments.getD [])).pretty.toList = false := by
    decide +kernel
  have hpackage : "svn:=1" ≠ "" := by decide
  have hblank : ∀ c ∈ "svn:=1".toList, Text.isBlank c = false := by
    have hall : "svn:=1".toList.all (!Text.isBlank ·) = true := by decide
    intro c hc
    simpa using List.all_eq_true.mp hall c hc
  have hissuer : namingSigner.createIssuer "chain" = .ok "chain" := rfl
  obtain ⟨text, i, first, rest, htext, hi, hsvn, hdeclared, hcovers⟩ :=
    exists_published layeredCompiler h (by decide) hm hpackage hblank (by decide) hissuer
      18446744073709551615 "feed"
  exact ⟨_, h, text, i, first, rest, htext, hi, hsvn, hdeclared, hcovers _ fun _ ↦ rfl⟩

end Compiler

end ConfidentialPolicy

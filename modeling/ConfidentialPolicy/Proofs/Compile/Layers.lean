import ConfidentialPolicy.Proofs.Compile
import ConfidentialPolicy.Proofs.FirstOccurrences

namespace ConfidentialPolicy.Compiler

open Checked

variable {lookup : LayerLookup} {known : List (String × List String)} {layers : List String}
  {c d : Container} {cs : List Container}

theorem succeeds_layered_iff : Succeeds (layered lookup c) ↔ Succeeds (lookup c.image) := by
  unfold layered
  cases lookup c.image with
  | error e => exact iff_of_false (not_succeeds_error _) (not_succeeds_error e)
  | ok layers => exact iff_of_true (succeeds_ok _) (succeeds_ok layers)

/-- The error of an image is that of its look-up, or the same cause with the image in front. -/
structure ErrorAbout (image : String) (cause e : PolicyError) : Prop where
  kind : e.kind = .imageResolution
  unchanged : cause.kind = .imageResolution → e = cause
  wrapped : cause.kind ≠ .imageResolution → e = .image (image ++ ": " ++ cause.message)

theorem errorAbout_layerError (image : String) (cause : PolicyError) :
    ErrorAbout image cause (layerError image cause) := by
  by_cases himage : ∃ reason, cause = .image reason
  · obtain ⟨reason, rfl⟩ := himage
    exact ⟨rfl, fun _ ↦ rfl, fun h ↦ absurd rfl h⟩
  · have hwrapped : layerError image cause = .image (image ++ ": " ++ cause.message) :=
      layerError.eq_2 image cause fun reason h ↦ himage ⟨reason, h⟩
    have hkind : cause.kind ≠ .imageResolution := by
      cases cause with
      | image reason => exact absurd ⟨reason, rfl⟩ himage
      | _ => exact nofun
    exact ⟨by rw [hwrapped]; rfl, fun h ↦ absurd h hkind, fun _ ↦ hwrapped⟩

def openImages (known : List (String × List String)) (cs : List Container) : List String :=
  ((cs.map (·.image)).filter fun image ↦ (known.lookup image).isNone).eraseDups

theorem openImages_nil (cs : List Container) : openImages [] cs = Container.images cs := by
  simp [openImages, Container.images]

theorem openImages_cons_of_some (h : known.lookup c.image = some layers) :
    openImages known (c :: cs) = openImages known cs := by
  simp [openImages, h]

/-- An image that was just answered is not asked for again. -/
theorem openImages_cons_of_none (h : known.lookup c.image = none) (layers : List String) :
    openImages known (c :: cs) = c.image :: openImages ((c.image, layers) :: known) cs := by
  have hlater (image : String) : (((c.image, layers) :: known).lookup image).isNone =
      (!(image == c.image) && (known.lookup image).isNone) := by
    rw [List.lookup_cons]
    cases image == c.image <;> rfl
  simp only [openImages, List.map_cons, List.filter_cons, h, Option.isNone_none, if_true,
    List.eraseDups_cons, List.filter_filter, hlater]

/-- What asking for images in turn comes to: all have layers, or the first one without stops it. -/
inductive AskedInTurn (lookup : LayerLookup) (images : List String) :
    Asked (List Container) → Prop
  | all {ds : List Container} (h : ∀ image ∈ images, Succeeds (lookup image)) :
      AskedInTurn lookup images ⟨.ok ds, images⟩
  | stopped {asked rest : List String} {image : String} {cause : PolicyError}
      (hsplit : images = asked ++ image :: rest) (h : ∀ image ∈ asked, Succeeds (lookup image))
      (hcause : lookup image = .error cause) :
      AskedInTurn lookup images ⟨.error (layerError image cause), asked ++ [image]⟩

theorem AskedInTurn.map {images : List String} {a : Asked (List Container)}
    (h : AskedInTurn lookup images a) (f : List Container → List Container) :
    AskedInTurn lookup images (a.map f) := by
  cases h with
  | all h => exact .all h
  | stopped hsplit h hcause => exact .stopped hsplit h hcause

theorem AskedInTurn.cons {images : List String} {image : String} {a : Asked (List Container)}
    (h : AskedInTurn lookup images a) (himage : Succeeds (lookup image))
    (f : List Container → List Container) :
    AskedInTurn lookup (image :: images) ⟨a.result.map f, image :: a.images⟩ := by
  cases h with
  | all h => exact .all (List.forall_mem_cons.mpr ⟨himage, h⟩)
  | stopped hsplit h hcause =>
    rw [hsplit]
    exact .stopped rfl (List.forall_mem_cons.mpr ⟨himage, h⟩) hcause

theorem askedInTurn_fillLayers (lookup : LayerLookup) (known : List (String × List String))
    (cs : List Container) :
    AskedInTurn lookup (openImages known cs) (fillLayers lookup known cs) := by
  induction cs generalizing known with
  | nil => exact .all (List.forall_mem_nil _)
  | cons c cs ih =>
    simp only [fillLayers]
    split
    · next layers hknown =>
      rw [openImages_cons_of_some hknown]
      exact (ih known).map _
    · next hopen =>
      split
      · next cause hcause =>
        rw [openImages_cons_of_none hopen [], ← List.nil_append (c.image :: _)]
        exact .stopped rfl (List.forall_mem_nil _) hcause
      · next layers hlayers =>
        rw [openImages_cons_of_none hopen layers]
        exact (ih _).cons ⟨layers, hlayers⟩ _

/-- A container with these layers and with every other field as it was. -/
structure LayersFilled (layers : List String) (c d : Container) : Prop where
  layers : d.layers = layers
  others : { d with layers := c.layers } = c

theorem layersFilled_withLayers (c : Container) (layers : List String) :
    LayersFilled layers c (c.withLayers layers) := ⟨rfl, rfl⟩

/-- What filling in the layers of containers comes to, beside the look-up for each of them. -/
structure Fills (lookup : LayerLookup) (cs : List Container) (a : Asked (List Container)) :
    Prop where
  succeeds_iff : Succeeds a.result ↔ ∀ c ∈ cs, Succeeds (lookup c.image)
  filled : ∀ ds, a.result = .ok ds →
    List.Forall₂ (fun c d ↦ ∃ layers, lookup c.image = .ok layers ∧ LayersFilled layers c d) cs ds
  /-- Where it succeeds, every image is asked for once. -/
  askedAll : Succeeds a.result → FirstOccurrences (cs.map (·.image)) a.images
  /-- Where it fails, the images up to the first one without layers are. -/
  stopped : ∀ e, a.result = .error e → ∃ asked image rest cause,
    FirstOccurrences (cs.map (·.image)) (asked ++ image :: rest) ∧
    (∀ other ∈ asked, Succeeds (lookup other)) ∧ lookup image = .error cause ∧
    a.images = asked ++ [image] ∧ ErrorAbout image cause e

theorem filled_of_layered (h : layered lookup c = .ok d) :
    ∃ layers, lookup c.image = .ok layers ∧ LayersFilled layers c d := by
  unfold layered at h
  split at h
  · next layers hlayers =>
    cases h
    exact ⟨layers, hlayers, layersFilled_withLayers c layers⟩
  · cases h

theorem fills_of_askedInTurn {a : Asked (List Container)}
    (hresult : a.result = cs.mapM (layered lookup))
    (hturn : AskedInTurn lookup (Container.images cs) a) : Fills lookup cs a := by
  have hsucceeds : Succeeds a.result ↔ ∀ c ∈ cs, Succeeds (lookup c.image) := by
    rw [hresult, succeeds_mapM_iff]
    exact forall₂_congr fun c _ ↦ succeeds_layered_iff
  have hfirst := Container.firstOccurrences_images cs
  cases hturn with
  | @all ds h =>
    refine ⟨hsucceeds, fun ds' hds ↦ ?_, fun _ ↦ hfirst, nofun⟩
    rw [hresult] at hds
    exact (mapM_eq_ok_iff.mp hds).imp fun _ _ ↦ filled_of_layered
  | @stopped asked rest image cause hsplit h hcause =>
    refine ⟨hsucceeds, nofun, fun hok ↦ absurd hok (not_succeeds_error _), ?_⟩
    rintro _ ⟨⟩
    rw [hsplit] at hfirst
    exact ⟨asked, image, rest, cause, hfirst, h, hcause, rfl, errorAbout_layerError image cause⟩

/-- Layers that are filled in with answers kept are those that asking for every container gives, and
no image is asked for twice or after one that failed. -/
theorem fills_populateLayers (options : Options) (lookup : LayerLookup)
    (discovery : Option Discovery) (cs : List Container) :
    Fills lookup cs (populateLayers ⟨options, some lookup, discovery⟩ cs) := by
  have hturn := askedInTurn_fillLayers lookup [] cs
  rw [openImages_nil] at hturn
  exact fills_of_askedInTurn (fillLayers_result (by simp [Remembers]) cs) hturn

def bareContainer (id image : String) : Container where
  id := id
  image := image
  command := []
  workingDir := "/"
  envRules := []
  mounts := []
  elevated := false
  stdio := true
  execProcesses := []
  signals := []
  layers := ["stale"]
  kind := .plain

def replicas : List Container :=
  [bareContainer "web-0" "web:1", bareContainer "cache" "cache:7", bareContainer "web-1" "web:1"]

def registry : LayerLookup := fun image ↦
  if image = "job:2" then .error (.unresolvable "no route") else .ok [image]

theorem fills_populateLayers_replicas : ∃ ds,
    (populateLayers ⟨{}, some registry, none⟩ replicas).result = .ok ds ∧
    ds.map (·.layers) = [["web:1"], ["cache:7"], ["web:1"]] ∧
    List.Forall₂ (fun c d ↦ ∃ layers, registry c.image = .ok layers ∧ LayersFilled layers c d)
      replicas ds ∧
    (populateLayers ⟨{}, some registry, none⟩ replicas).images = ["web:1", "cache:7"] ∧
    populateLayers ⟨{}, some registry, none⟩
      (replicas ++ [bareContainer "job" "job:2", bareContainer "late" "late:3"]) =
        ⟨.error (.image ("job:2: " ++ (PolicyError.unresolvable "no route").message)),
          ["web:1", "cache:7", "job:2"]⟩ := by
  have h := fills_populateLayers {} registry none replicas
  exact ⟨_, rfl, rfl, h.filled _ rfl, rfl, rfl⟩

end ConfidentialPolicy.Compiler

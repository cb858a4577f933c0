import CityScene.Proofs.Document.Coordinates
import CityScene.Proofs.Document.Dimensions
import CityScene.Proofs.Document.Runs

/-!
# The points of a ring, however they are written

Inside of a ring the same points can stand in one list of positions, in a position for each of
them, in coordinate tuples, or in any mixture of these, and with any blanks between the numbers.
`Encodes` says which events write which points, and `applyAll_of_encodes` that the ring gets those
points and that nothing else changes.  So what follows cannot tell one encoding from another
(`readEvents_encodings`).

Nor does it matter in how many pieces a text comes (`readEvents_of_cuts`), since a frame that
collects text appends each piece to what it has, and any other frame passes over all of them.
-/

namespace CityScene.Document

open Decimal (Writes)
open Text (Spaced)

/-! ### Texts in pieces -/

/-- The second events are the first with texts cut into consecutive pieces. -/
inductive Cuts : List Event → List Event → Prop
  | nil : Cuts [] []
  | keep (e : Event) {s t : List Event} (h : Cuts s t) : Cuts (e :: s) (e :: t)
  | cut (pieces : List String) {s t : List Event} (h : Cuts s t) :
      Cuts (.text (String.join pieces) :: s) (pieces.map .text ++ t)

theorem Cuts.refl (events : List Event) : Cuts events events := by
  induction events with
  | nil => exact .nil
  | cons e events ih => exact .keep e ih

/-- Any text may be cut. -/
theorem cuts_text (before after : List Event) (pieces : List String) :
    Cuts (before ++ .text (String.join pieces) :: after)
      (before ++ (pieces.map .text ++ after)) := by
  induction before with
  | nil => exact .cut pieces (.refl after)
  | cons e before ih => exact .keep e ih

theorem Frame.takeText_append (f : Frame) (first second : String) :
    (f.takeText first).takeText second = f.takeText (first ++ second) := by
  cases f with
  | text t =>
    show Frame.text { t with content := t.content ++ first ++ second } = _
    rw [String.append_assoc]
    rfl
  | _ => rfl

theorem Frame.takeText_empty (f : Frame) : f.takeText "" = f := by
  cases f with
  | text t =>
    show Frame.text { t with content := t.content ++ "" } = _
    rw [String.append_empty]
  | _ => rfl

namespace Builder

variable {b : Builder}

theorem addText_append (b : Builder) (first second : String) :
    (b.addText first).addText second = b.addText (first ++ second) := by
  cases hs : b.stack with
  | nil => simp only [addText, hs]
  | cons e outer => simp only [addText, hs, Frame.takeText_append]

theorem addText_empty (b : Builder) : b.addText "" = b := by
  cases hs : b.stack with
  | nil => simp only [addText, hs]
  | cons e outer =>
    simp only [addText, hs, Frame.takeText_empty]
    rw [← hs]

theorem isAborted_addText (b : Builder) (content : String) :
    (b.addText content).isAborted = b.isAborted := by
  rw [addText]
  cases b.stack <;> rfl

theorem applyAll_text (config : Config) (hactive : b.isAborted = false) (content : String)
    (events : List Event) :
    b.applyAll config (.text content :: events) = (b.addText content).applyAll config events :=
  applyAll_cons_of_ok (if_neg (by simp [hactive]))

/-- Pieces of a text do what the whole text does. -/
theorem applyAll_pieces (config : Config) (hactive : b.isAborted = false) (pieces : List String)
    (events : List Event) :
    b.applyAll config (pieces.map .text ++ events) =
      b.applyAll config (.text (String.join pieces) :: events) := by
  induction pieces generalizing b with
  | nil =>
    rw [applyAll_text config hactive, String.join_nil, addText_empty]
    rfl
  | cons piece pieces ih =>
    have hactive' := (b.isAborted_addText piece).trans hactive
    rw [List.map_cons, List.cons_append, applyAll_text config hactive, ih hactive',
      applyAll_text config hactive', addText_append, ← String.join_cons,
      applyAll_text config hactive]

theorem applyAll_of_cuts (config : Config) {s t : List Event} (h : Cuts s t)
    (hactive : b.isAborted = false) : b.applyAll config t = b.applyAll config s := by
  induction h generalizing b with
  | nil => rfl
  | keep e _ ih =>
    cases he : b.apply config e with
    | ok m =>
      have hstep : b.applyAll config [e] = .ok m := applyAll_cons_of_ok he
      rw [applyAll_cons_of_ok he, applyAll_cons_of_ok he, ih (isAborted_of_applyAll hstep hactive)]
    | error error =>
      rw [applyAll, applyAll, List.foldlM_cons, List.foldlM_cons, he]
      rfl
  | cut pieces _ ih =>
    have hactive' := (b.isAborted_addText (String.join pieces)).trans hactive
    rw [applyAll_pieces config hactive, applyAll_text config hactive, ih hactive',
      applyAll_text config hactive]

end Builder

theorem readEvents_of_cuts (config : Config) {s t : List Event} (h : Cuts s t) :
    readEvents config t = readEvents config s := by
  rw [readEvents, Builder.applyAll_of_cuts config h rfl, readEvents]

/-! ### Numbers in triples -/

/-- The three numbers write the point. -/
inductive WritesTriple : List (List Char) → Vec3 Float → Prop
  | mk {x y z : List Char} {p : Vec3 Float} (hx : Writes x p.x) (hy : Writes y p.y)
      (hz : Writes z p.z) : WritesTriple [x, y, z] p

theorem WritesTriple.writesPoint {tokens : List (List Char)} {p : Vec3 Float}
    (h : WritesTriple tokens p) : WritesPoint tokens p := by
  cases h with
  | mk hx hy hz => exact .space hx hy hz

/-- The numbers of the points, one after the other. -/
def numbers (points : List (Vec3 Float)) : List Float :=
  points.flatMap fun p => [p.x, p.y, p.z]

theorem numbers_cons (p : Vec3 Float) (points : List (Vec3 Float)) :
    numbers (p :: points) = p.x :: p.y :: p.z :: numbers points := by
  rw [numbers, List.flatMap_cons]
  rfl

theorem triples_numbers (points : List (Vec3 Float)) : triples (numbers points) = points := by
  induction points with
  | nil => rfl
  | cons p points ih => rw [numbers_cons, triples, ih]

theorem length_numbers (points : List (Vec3 Float)) :
    (numbers points).length = 3 * points.length := by
  induction points with
  | nil => rfl
  | cons p points ih =>
    rw [numbers_cons]
    simp only [List.length_cons, ih]
    omega

section Texts

variable {tuples : List (List (List Char))} {points : List (Vec3 Float)} {text : String}

theorem writes_flatten (h : List.Forall₂ WritesTriple tuples points) :
    List.Forall₂ Writes tuples.flatten (numbers points) := by
  induction h with
  | nil => exact .nil
  | cons hp _ ih =>
    rw [List.flatten_cons, numbers_cons]
    cases hp with
    | mk hx hy hz => exact .cons hx (.cons hy (.cons hz ih))

/-- Numbers are read one by one, however they are spaced. -/
theorem readFloats_of_spaced (field : String) {tokens : List (List Char)} {values : List Float}
    (hspaced : Spaced tokens text.toList) (h : List.Forall₂ Writes tokens values) :
    readFloats field (Text.trimmed text) = .ok values := by
  have hwords : ∀ token ∈ tokens, Text.IsWord token := by
    intro token ht
    obtain ⟨x, hx⟩ := exists_of_forall₂_of_mem h ht
    exact isWord_of_writes hx
  rw [readFloats, Text.trimmed, String.toList_ofList, Text.words_trim, hspaced.words_eq hwords]
  exact mapM_eq_ok (h.imp fun _ _ hx => readFinite_of_writes hx field)

theorem readPositions_of_spaced (hspaced : Spaced tuples.flatten text.toList)
    (h : List.Forall₂ WritesTriple tuples points) :
    readPositions (Text.trimmed text) 3 = .ok points := by
  have hfits : ¬ (numbers points).length % 3 ≠ 0 := by
    rw [length_numbers]
    omega
  rw [readPositions, readFloats_of_spaced _ hspaced (writes_flatten h)]
  show (if (numbers points).length % 3 ≠ 0 then _ else _) = _
  rw [if_neg hfits]
  exact congrArg Except.ok (triples_numbers points)

theorem readPoint_of_spaced (field : String) {tokens : List (List Char)} {p : Vec3 Float}
    (hspaced : Spaced tokens text.toList) (h : WritesTriple tokens p) :
    readPoint field (Text.trimmed text) = .ok p := by
  cases h with
  | mk hx hy hz =>
    rw [readPoint, readFloats_of_spaced _ hspaced (.cons hx (.cons hy (.cons hz .nil)))]
    rfl

theorem distinct_default : ({} : Separators).Distinct :=
  ⟨by decide, by decide, by decide, by decide, by decide⟩

/-- Without blanks and commas, a number is told from the separators that no attribute changes. -/
theorem spares_default {token : List Char} {x : Float} (h : Writes token x) :
    ({} : Separators).Spares token := by
  intro c hc hpoint
  obtain ⟨hsolid, hcomma⟩ := Decimal.plain_of_readFloat h.1 c hc
  refine ⟨hpoint, hcomma, ?_⟩
  rintro rfl
  cases hsolid

theorem readCoordinates_of_spaced
    (hspaced : Spaced (tuples.map ({} : Separators).join) text.toList)
    (h : List.Forall₂ WritesTriple tuples points) :
    readCoordinates (Text.trimmed text) {} = .ok points := by
  have hpoints : List.Forall₂ WritesPoint tuples points := h.imp fun _ _ hp => hp.writesPoint
  have hspares : ∀ tokens ∈ tuples, ∀ token ∈ tokens, ({} : Separators).Spares token := by
    intro tokens ht token htoken
    obtain ⟨p, hp⟩ := exists_of_forall₂_of_mem hpoints ht
    obtain ⟨x, hx⟩ := hp.exists_writes htoken
    exact spares_default hx
  have hwords : ∀ joined ∈ tuples.map ({} : Separators).join, Text.IsWord joined :=
    fun joined hmem => (Separators.isWord_join distinct_default hspares hpoints joined hmem).1
  have htuples : ({} : Separators).tuples (Text.trimmed text).toList =
      tuples.map ({} : Separators).join := by
    rw [Text.trimmed, String.toList_ofList, ← hspaced.words_eq hwords, ← Text.words_trim]
    rfl
  rw [readCoordinates, htuples, mapM_readTuple_join distinct_default hspares hpoints]

end Texts

/-! ### Elements -/

/-- The text of an element writes the points: one of them, all their numbers, or their tuples. -/
inductive WritesPoints (attributes : Markup.Attributes) (dimension : Option Nat) :
    PositionText → String → List (Vec3 Float) → Prop
  | position {tokens : List (List Char)} {p : Vec3 Float} {text : String}
      (h : WritesTriple tokens p) (hspaced : Spaced tokens text.toList) :
      WritesPoints attributes dimension .position text [p]
  | positionList {tuples : List (List (List Char))} {points : List (Vec3 Float)} {text : String}
      (h : List.Forall₂ WritesTriple tuples points) (hspaced : Spaced tuples.flatten text.toList)
      (hdimension : dimension = none ∨ dimension = some 3) :
      WritesPoints attributes dimension .positionList text points
  | coordinates {tuples : List (List (List Char))} {points : List (Vec3 Float)} {text : String}
      (h : List.Forall₂ WritesTriple tuples points)
      (hspaced : Spaced (tuples.map ({} : Separators).join) text.toList)
      (hseparators : separators attributes = {}) :
      WritesPoints attributes dimension .coordinates text points

/-- **What is written is read.** -/
theorem WritesPoints.read_eq {attributes : Markup.Attributes} {dimension : Option Nat}
    {kind : PositionText} {text : String} {points : List (Vec3 Float)}
    (h : WritesPoints attributes dimension kind text points) :
    kind.read attributes dimension (Text.trimmed text) = .ok points := by
  cases h with
  | position h hspaced =>
    rw [PositionText.read, readPoint_of_spaced "pos" hspaced h]
    rfl
  | positionList h hspaced hdimension =>
    have hthree : dimension.getD 3 = 3 := by rcases hdimension with rfl | rfl <;> rfl
    rw [PositionText.read, hthree, readPositions_of_spaced hspaced h]
  | coordinates h hspaced hseparators =>
    rw [PositionText.read, hseparators, readCoordinates_of_spaced hspaced h]

/-- The events write the points: one element after the other, each with some of the points, and
with any text between them.  An element may name the reference system in effect, if that says
nothing new. -/
inductive Encodes (b : Builder) (srs : Option String) : List Event → List (Vec3 Float) → Prop
  | nil : Encodes b srs [] []
  | text (content : String) {events : List Event} {points : List (Vec3 Float)}
      (h : Encodes b srs events points) : Encodes b srs (.text content :: events) points
  | element {name content : String} {attributes : Markup.Attributes} {kind : PositionText}
      {written : List (Vec3 Float)}
      (hkind : Element.ofTag (Markup.localName name) attributes = .text (.positions kind))
      (hsystem : ∀ system, attributes.value? "srsName" = some system →
        srs = some system ∧ b.mentionSystem system attributes = b)
      (hwrites : WritesPoints attributes (b.dimension? srs attributes) kind content written)
      {events : List Event} {points : List (Vec3 Float)} (h : Encodes b srs events points) :
      Encodes b srs (.opened name attributes :: .text content :: .closed name :: events)
        (written ++ points)

namespace Builder

variable (config : Config) {b : Builder}

/-- A system that is registered already is not mentioned anew. -/
theorem mentionSystem_eq_self (b : Builder) {name : String} (attributes : Markup.Attributes)
    (hcontains : b.model.registry.contains name = true)
    (hanswers : b.model.answers (.ofLink name .referenceSystem b.stack.objectId?) = true) :
    b.mentionSystem name attributes = b := by
  have hkind : ReferenceKind.referenceSystem ≠ .polygon := by decide
  have hrecord : b.model.recordReference (.ofLink name .referenceSystem b.stack.objectId?) =
      b.model := by
    rw [Model.recordReference, if_pos ⟨hkind, hanswers⟩]
  rw [mentionSystem, if_pos hcontains]
  show { b with model := b.model.recordReference _ } = b
  rw [hrecord]

/-- The state with a ring as what the innermost element collects. -/
def inRing (b : Builder) (e : OpenElement) (outer : Stack) (r : RingParts) : Builder :=
  { b with stack := { e with frame := .ring r } :: outer }

theorem reproject_append (b : Builder) (srs : Option String)
    (points points' : List (Vec3 Float)) :
    b.reproject config srs (points ++ points') =
      b.reproject config srs points ++ b.reproject config srs points' := by
  unfold reproject
  split
  · split
    · rfl
    · exact List.map_append
  · rfl

theorem reproject_nil (b : Builder) (srs : Option String) :
    b.reproject config srs [] = [] := by
  unfold reproject
  split
  · split <;> rfl
  · rfl

theorem apply_opened_positions {name : String} {attributes : Markup.Attributes}
    {kind : PositionText} (hactive : b.isAborted = false)
    (hskip : b.stack.head?.any (·.frame.isSkipped) = false)
    (hkind : Element.ofTag (Markup.localName name) attributes = .text (.positions kind))
    (hsystem : ∀ system, attributes.value? "srsName" = some system →
      b.stack.srs? = some system ∧ b.mentionSystem system attributes = b) :
    b.apply config (.opened name attributes) =
      .ok { b with
        stack := ⟨name, b.stack.srs?, .text { element := .positions kind, attributes }⟩ ::
          b.stack } := by
  have hframe : b.openFrame config (Markup.localName name) attributes b.stack.srs? =
      (b, .text { element := .positions kind, attributes }) := by
    rw [openFrame, hkind]
  rw [apply_opened config hactive, openElement_eq, hskip, if_neg Bool.false_ne_true]
  cases hname : attributes.value? "srsName" with
  | none =>
    dsimp only
    rw [enter, hframe]
  | some system =>
    obtain ⟨hsrs, hmention⟩ := hsystem system hname
    dsimp only
    rw [hmention, ← hsrs, enter, hframe]

/-- Whether a system is known does not depend on what the ring already has. -/
theorem mentionSystem_inRing {e : OpenElement} {outer : Stack} {r₀ : RingParts} {system : String}
    {attributes : Markup.Attributes}
    (h : (b.inRing e outer r₀).mentionSystem system attributes = b.inRing e outer r₀)
    (r : RingParts) :
    (b.inRing e outer r).mentionSystem system attributes = b.inRing e outer r := by
  have hmodel : ((b.inRing e outer r₀).mentionSystem system attributes).model = b.model := by
    rw [h]
    rfl
  show { b.inRing e outer r with
    model := ((b.inRing e outer r₀).mentionSystem system attributes).model } = _
  rw [hmodel]
  rfl

/-- **An element with positions adds its points to the ring**, and does nothing else. -/
theorem applyAll_positions {e : OpenElement} (outer : Stack) (r : RingParts)
    {name content : String} {attributes : Markup.Attributes} {kind : PositionText}
    {points : List (Vec3 Float)} (hactive : b.isAborted = false)
    (hkind : Element.ofTag (Markup.localName name) attributes = .text (.positions kind))
    (hsystem : ∀ system, attributes.value? "srsName" = some system →
      e.srs = some system ∧
        (b.inRing e outer r).mentionSystem system attributes = b.inRing e outer r)
    (hwrites : WritesPoints attributes (b.dimension? e.srs attributes) kind content points) :
    (b.inRing e outer r).applyAll config [.opened name attributes, .text content, .closed name] =
      .ok (b.inRing e outer { r with
        points := r.points ++ (b.inRing e outer r).reproject config e.srs points }) := by
  let text : TextParts := { element := .positions kind, attributes, content := "" ++ content }
  let collecting : OpenElement := ⟨name, e.srs, .text text⟩
  let collected : Builder := { b with stack := collecting :: { e with frame := .ring r } :: outer }
  have hopened := apply_opened_positions config (b := b.inRing e outer r) hactive rfl hkind
    hsystem
  have hclosed : collected.apply config (.closed name) =
      .ok ((b.inRing e outer r).closePositions config e.srs kind attributes
        (Text.trimmed ("" ++ content))) :=
    apply_closed_positions (b := collected) (e := collecting) (t := text) hactive config rfl rfl rfl
  have hread : kind.read attributes ((b.inRing e outer r).dimension? e.srs attributes)
      (Text.trimmed ("" ++ content)) = .ok points := by
    rw [String.empty_append]
    exact hwrites.read_eq
  rw [applyAll_cons_of_ok hopened, applyAll_text config (by exact hactive)]
  show collected.applyAll config [.closed name] = _
  rw [applyAll_cons_of_ok hclosed, closePositions, hread]
  rfl

/-- **The ring gets the points**, whichever events write them, and nothing else changes. -/
theorem applyAll_of_encodes {e : OpenElement} {outer : Stack} {r₀ : RingParts}
    {events : List Event} {points : List (Vec3 Float)} (hactive : b.isAborted = false)
    (h : Encodes (b.inRing e outer r₀) e.srs events points) (r : RingParts) :
    (b.inRing e outer r).applyAll config events =
      .ok (b.inRing e outer { r with
        points := r.points ++ (b.inRing e outer r).reproject config e.srs points }) := by
  induction h generalizing r with
  | nil =>
    rw [reproject_nil, List.append_nil]
    rfl
  | text content _ ih =>
    rw [applyAll_text config (by exact hactive)]
    exact ih r
  | @element name content attributes kind written hkind hsystem hwrites events points _ ih =>
    have hknown : ∀ system, attributes.value? "srsName" = some system → e.srs = some system ∧
        (b.inRing e outer r).mentionSystem system attributes = b.inRing e outer r :=
      fun system hname => (hsystem system hname).imp id (mentionSystem_inRing · r)
    have hfirst := applyAll_positions config outer r hactive hkind hknown hwrites
    show (b.inRing e outer r).applyAll config
      ([.opened name attributes, .text content, .closed name] ++ events) = _
    rw [applyAll_append_of_ok hfirst, ih, reproject_append, ← List.append_assoc]
    -- where points go does not depend on what the ring already has
    rfl

end Builder

/-- **Encodings agree.**  Inside of a ring, events that write the same points do the same: the ring
gets the points where the reference system in effect puts them, and whatever comes before and after,
reading ends alike, with the same outcome or the same error.  Nor does it matter into which pieces
texts are cut. -/
theorem readEvents_encodings (config : Config) :
    (∀ {before children children' : List Event} {b : Builder} {e : OpenElement} {outer : Stack}
      {r : RingParts} {points : List (Vec3 Float)},
      (Builder.start config).applyAll config before = .ok b → b.stack = e :: outer →
      e.frame = .ring r → Encodes b e.srs children points → Encodes b e.srs children' points →
        b.applyAll config children = .ok { b with
          stack := { e with frame := .ring { r with
            points := r.points ++ b.reproject config e.srs points } } :: outer } ∧
        b.applyAll config children' = b.applyAll config children ∧
        ∀ after, readEvents config (before ++ children' ++ after) =
          readEvents config (before ++ children ++ after)) ∧
    ∀ {events events' : List Event}, Cuts events events' →
      readEvents config events' = readEvents config events := by
  refine ⟨?_, fun h => readEvents_of_cuts config h⟩
  intro before children children' b e outer r points hb hs hframe h h'
  have hactive := Builder.isAborted_of_applyAll hb rfl
  have hring : b.inRing e outer r = b := by
    rw [Builder.inRing, ← hframe, ← hs]
  rw [← hring] at h h'
  have hrun := Builder.applyAll_of_encodes config hactive h r
  have hrun' := Builder.applyAll_of_encodes config hactive h' r
  rw [hring] at hrun hrun'
  refine ⟨hrun, hrun'.trans hrun.symm, fun after => ?_⟩
  rw [readEvents, readEvents, List.append_assoc, List.append_assoc,
    Builder.applyAll_append_of_ok hb, Builder.applyAll_append_of_ok hb,
    Builder.applyAll_append_of_ok hrun, Builder.applyAll_append_of_ok hrun']

/-- What is collected for a ring. -/
def Frame.ring? : Frame → Option RingParts
  | ring r => some r
  | _ => none

theorem Frame.eq_ring {f : Frame} {r : RingParts} (h : f.ring? = some r) : f = .ring r := by
  cases f <;> cases h
  rfl

/-- A building with a surface in a reference system, up to its ring. -/
def toRing : List Event :=
  [.opened "bldg:Building" [], .opened "bldg:lod1MultiSurface" [("srsName", "S")],
   .opened "gml:Polygon" [], .opened "gml:exterior" [], .opened "gml:LinearRing" []]

/-- What closes the ring and the building. -/
def fromRing : List Event :=
  [.closed "gml:LinearRing", .closed "gml:exterior", .closed "gml:Polygon",
   .closed "bldg:lod1MultiSurface", .closed "bldg:Building"]

def triangle : List (Vec3 Float) :=
  [⟨0, 0, 1⟩, ⟨4, 0, 1⟩, ⟨4, 3, 1⟩]

/-- The triangle as a list of positions, which names the system once more. -/
def listed : List Event :=
  [.opened "gml:posList" [("srsName", "S"), ("srsDimension", "3")], .text "0 0 1 4.0 0 1 4 3 1",
   .closed "gml:posList"]

/-- The list with its text in pieces, a number cut in two. -/
def cutListed : List Event :=
  [.opened "gml:posList" [("srsName", "S"), ("srsDimension", "3")],
   .text "0 0 1 4", .text "", .text ".0 0 1 4 3 1", .closed "gml:posList"]

/-- The triangle as a position and two coordinate tuples. -/
def mixed : List Event :=
  [.opened "gml:pos" [], .text "0\t0  1", .closed "gml:pos", .text "\n",
   .opened "gml:coordinates" [], .text "\n4,0,1\n4.0,3e0,1\n", .closed "gml:coordinates"]

theorem spaced_of_words_eq {ws : List (List Char)} {cs : List Char} (h : Text.words cs = ws) :
    Spaced ws cs := by
  subst h
  exact Text.spaced_words cs

theorem writes_corners : Writes "0".toList 0 ∧ Writes "1".toList 1 ∧ Writes "3".toList 3 ∧
    Writes "3e0".toList 3 ∧ Writes "4".toList 4 ∧ Writes "4.0".toList 4 := by
  refine ⟨⟨?_, ?_⟩, ⟨?_, ?_⟩, ⟨?_, ?_⟩, ⟨?_, ?_⟩, ⟨?_, ?_⟩, ⟨?_, ?_⟩⟩ <;> decide +kernel

theorem encodes_listed {b : Builder} {srs : Option String} (hsrs : srs = some "S")
    (hmention : ∀ attributes, b.mentionSystem "S" attributes = b) :
    Encodes b srs listed triangle := by
  obtain ⟨h0, h1, h3, -, h4, h4'⟩ := writes_corners
  have hspaced : Spaced (["0", "0", "1", "4.0", "0", "1", "4", "3", "1"].map String.toList)
      "0 0 1 4.0 0 1 4 3 1".toList := spaced_of_words_eq (by decide)
  have htriples : List.Forall₂ WritesTriple [["0".toList, "0".toList, "1".toList],
      ["4.0".toList, "0".toList, "1".toList], ["4".toList, "3".toList, "1".toList]] triangle :=
    .cons (.mk h0 h0 h1) (.cons (.mk h4' h0 h1) (.cons (.mk h4 h3 h1) .nil))
  have hsystem : ∀ system, Markup.Attributes.value? [("srsName", "S"), ("srsDimension", "3")]
      "srsName" = some system → srs = some system ∧
        b.mentionSystem system [("srsName", "S"), ("srsDimension", "3")] = b := by
    intro system h
    obtain rfl : "S" = system := Option.some.inj h
    exact ⟨hsrs, hmention _⟩
  exact .element (by decide) hsystem (.positionList htriples hspaced (.inr rfl)) .nil

theorem encodes_mixed (b : Builder) (srs : Option String) : Encodes b srs mixed triangle := by
  obtain ⟨h0, h1, -, h3, h4, h4'⟩ := writes_corners
  have hfirst : Spaced (["0", "0", "1"].map String.toList) "0\t0  1".toList :=
    spaced_of_words_eq (by decide)
  have hothers : Spaced (["4,0,1", "4.0,3e0,1"].map String.toList) "\n4,0,1\n4.0,3e0,1\n".toList :=
    spaced_of_words_eq (by decide)
  have htriples : List.Forall₂ WritesTriple [["4".toList, "0".toList, "1".toList],
      ["4.0".toList, "3e0".toList, "1".toList]] [⟨4, 0, 1⟩, ⟨4, 3, 1⟩] :=
    .cons (.mk h4 h0 h1) (.cons (.mk h4' h3 h1) .nil)
  have hcoordinates : Encodes b srs [.opened "gml:coordinates" [],
      .text "\n4,0,1\n4.0,3e0,1\n", .closed "gml:coordinates"] [⟨4, 0, 1⟩, ⟨4, 3, 1⟩] :=
    .element (by decide) (fun _ h => absurd h (Option.not_mem_none _))
      (.coordinates htriples hothers (by decide)) .nil
  exact .element (by decide) (fun _ h => absurd h (Option.not_mem_none _))
    (.position (.mk h0 h0 h1) hfirst) (.text _ hcoordinates)

theorem readEvents_mixedTriangle :
    (∃ outcome, readEvents {} (toRing ++ listed ++ fromRing) = .ok outcome) ∧
    readEvents {} (toRing ++ mixed ++ fromRing) = readEvents {} (toRing ++ listed ++ fromRing) ∧
    readEvents {} (toRing ++ cutListed ++ fromRing) =
      readEvents {} (toRing ++ listed ++ fromRing) := by
  have hstate : ((Builder.start {}).applyAll {} toRing).toOption.map (fun b =>
      (b.stack.head?.bind (·.frame.ring?), b.stack.srs?, b.model.registry.contains "S",
        b.model.answers (.ofLink "S" .referenceSystem b.stack.objectId?))) =
      some (some { id := none }, some "S", true, true) := by
    decide +kernel
  obtain ⟨b, hb, hstate⟩ := exists_of_toOption_map hstate
  obtain ⟨hring, hstate⟩ := Prod.mk.inj hstate
  obtain ⟨hsrs, hstate⟩ := Prod.mk.inj hstate
  obtain ⟨hcontains, hanswers⟩ := Prod.mk.inj hstate
  obtain ⟨hagree, hcut⟩ := readEvents_encodings {}
  have hcuts : Cuts (toRing ++ listed ++ fromRing) (toRing ++ cutListed ++ fromRing) :=
    cuts_text (toRing ++ [.opened "gml:posList" [("srsName", "S"), ("srsDimension", "3")]])
      (.closed "gml:posList" :: fromRing) ["0 0 1 4", "", ".0 0 1 4 3 1"]
  have hnests : WellNested (toRing ++ listed ++ fromRing) := nestAll_eq_nil_iff.1 (by decide)
  refine ⟨exists_readEvents_of_gridless {} hnests (by decide), ?_, hcut hcuts⟩
  cases hs : b.stack with
  | nil =>
    rw [hs] at hring
    cases hring
  | cons e outer =>
    rw [hs] at hring hsrs
    have hlisted : Encodes b e.srs listed triangle :=
      encodes_listed hsrs fun attributes => b.mentionSystem_eq_self attributes hcontains hanswers
    exact (hagree hb hs (Frame.eq_ring hring) hlisted (encodes_mixed b _)).2.2 fromRing

end CityScene.Document

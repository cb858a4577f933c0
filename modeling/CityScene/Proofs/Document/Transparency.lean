import CityScene.Proofs.Document.Omission

/-!
# Elements without a meaning

An element whose name means nothing is transparent.  What stands in it belongs to the elements
around it, so it makes no difference if such an element is put around a `Block` of complete elements
(`readEvents_wrapped`).

While the block is read, the run with the new element has that element open as padding, and nothing
that is done further in can tell (`Comparison.Alike`).  The padding is the innermost element only
between the elements of the block.  There no element is closed, and a text is in its place only
where it would not be collected (`Block.clears`).
-/

namespace CityScene.Document

open Comparison

/-! ### Blocks -/

/-- Complete elements side by side.  Text may stand between them if `texts` holds. -/
inductive Block (texts : Prop) : List Event → Prop
  | nil : Block texts []
  | text (htexts : texts) (content : String) {rest : List Event} (h : Block texts rest) :
      Block texts (.text content :: rest)
  | offset (bytes : Nat) {rest : List Event} (h : Block texts rest) :
      Block texts (.offset bytes :: rest)
  | element (name : String) (attributes : Markup.Attributes) {inside rest : List Event}
      (hinside : WellNested inside) (hrest : Block texts rest) :
      Block texts (.opened name attributes :: (inside ++ .closed name :: rest))

theorem Block.wellNested {texts : Prop} {events : List Event} (h : Block texts events) :
    WellNested events := by
  induction h with
  | nil => exact .nil
  | text _ content _ ih => exact .text content ih
  | offset bytes _ ih => exact .offset bytes ih
  | element name attributes hinside _ ih => exact .element name attributes hinside ih

/-- Where text may stand anywhere, complete elements are a block. -/
theorem WellNested.block {texts : Prop} (htexts : texts) {events : List Event}
    (h : WellNested events) : Block texts events := by
  induction h with
  | nil => exact .nil
  | text content _ ih => exact .text htexts content ih
  | offset bytes _ ih => exact .offset bytes ih
  | element name attributes hinside _ _ ih => exact .element name attributes hinside ih

/-- Padding below `k` elements admits all the events, and after them it is there again. -/
def Clears (p : Padding) (k : Nat) (events : List Event) : Prop :=
  AdmitsAll p (some k) events ∧ events.foldl indexAfter (some k) = some k

theorem Clears.element {p : Padding} {k : Nat} {name : String} {attributes : Markup.Attributes}
    {inside rest : List Event} (hinside : Clears p (k + 1) inside) (hrest : Clears p k rest) :
    Clears p k (.opened name attributes :: (inside ++ .closed name :: rest)) := by
  obtain ⟨hadmits, hindex⟩ := hinside
  have hclose : indexAfter (some (k + 1)) (.closed name) = some k := rfl
  refine ⟨⟨trivial, admitsAll_append.2 ⟨hadmits, ?_⟩⟩, ?_⟩
  · show AdmitsAll p (inside.foldl indexAfter (some (k + 1))) _
    rw [hindex, AdmitsAll, hclose]
    exact ⟨by simp [Admits], hrest.1⟩
  · show (inside ++ .closed name :: rest).foldl indexAfter (some (k + 1)) = some k
    rw [List.foldl_append, hindex, List.foldl_cons, hclose, hrest.2]

/-- Inside an element everything goes. -/
theorem WellNested.clears {events : List Event} (h : WellNested events) (p : Padding) (k : Nat) :
    Clears p (k + 1) events := by
  induction h generalizing k with
  | nil => exact ⟨trivial, rfl⟩
  | text content _ ih => exact ⟨⟨nofun, (ih k).1⟩, (ih k).2⟩
  | offset bytes _ ih => exact ⟨⟨trivial, (ih k).1⟩, (ih k).2⟩
  | element name attributes _ _ ihinside ihrest => exact (ihinside (k + 1)).element (ihrest k)

theorem Block.clears {p : Padding} {events : List Event} (h : Block (p.inText = false) events) :
    Clears p 0 events := by
  induction h with
  | nil => exact ⟨trivial, rfl⟩
  | text htexts content _ ih => exact ⟨⟨fun _ => htexts, ih.1⟩, ih.2⟩
  | offset bytes _ ih => exact ⟨⟨trivial, ih.1⟩, ih.2⟩
  | element name attributes hinside _ ih => exact (hinside.clears p 0).element ih

/-! ### Wrapping a block -/

namespace Builder

variable {config : Config} {b m : Builder} {name : String} {attributes : Markup.Attributes}
  {inside : List Event}

/-- The innermost open element takes in character data. -/
def collectsText (b : Builder) : Bool :=
  b.stack.head?.any (·.frame.collectsText)

theorem openElement_of_unknown
    (hunknown : Element.ofTag (Markup.localName name) attributes = .unknown)
    (hsystem : attributes.value? "srsName" = none)
    (houter : b.stack.head?.any (·.frame.isSkipped) = false) :
    b.openElement config name attributes =
      { b with stack := ⟨name, b.stack.srs?, .transparent⟩ :: b.stack } := by
  have hframe : b.openFrame config (Markup.localName name) attributes b.stack.srs? =
      (b, .transparent) := by
    unfold openFrame
    rw [hunknown]
  exact openElement_of_openFrame houter hsystem hframe

end Builder

/-- The padding is closed like any other element, and leaves nothing behind. -/
theorem Comparison.Alike.closePadding {config : Config} {p : Padding} {b b' : Builder}
    (h : (same config).Alike p (some 0) b b') (hactive : b'.isAborted = false) :
    ∃ m', b'.apply config (.closed p.name) = .ok m' ∧ (same config).Alike p none b m' := by
  have hstack := h.stack
  generalize hi : some 0 = i at hstack
  generalize hs : b.stack = s at hstack
  generalize hs' : b'.stack = s' at hstack
  cases hstack with
  | nil => cases hi
  | @cons e j s s' hstack => cases j <;> cases hi
  | @padding x s s' hx hstack =>
    refine ⟨{ b' with stack := s' }, ?_, h.model, ?_, h.diagnostics, h.generated, h.isAborted⟩
    · rw [Builder.apply_closed config hactive, ← hx.name]
      refine Builder.closeElement_of_closeFrame hs' ?_
      rw [hx.frame]
      rfl
    · rw [hs]
      exact hstack

namespace Builder

variable {config : Config} {b m : Builder} {name : String} {attributes : Markup.Attributes}
  {inside : List Event}

/-- A run through a block and one with a transparent element around it end in the same state. -/
theorem applyAll_wrapped (hunknown : Element.ofTag (Markup.localName name) attributes = .unknown)
    (hsystem : attributes.value? "srsName" = none) (hactive : b.isAborted = false)
    (hinside : Block (b.collectsText = false) inside) (h : b.applyAll config inside = .ok m) :
    ∃ offset, b.applyAll config (.opened name attributes :: (inside ++ [.closed name])) =
      .ok { m with offset } := by
  cases houter : b.stack.head?.any (·.frame.isSkipped) with
  | true =>
    -- both runs pass over what is in the element that is left out
    obtain ⟨top, outer, hstack, htop⟩ := exists_of_isSkipped houter
    have hwrapped : WellNested (.opened name attributes :: (inside ++ [.closed name])) :=
      .element name attributes hinside.wellNested .nil
    obtain ⟨offset, hm⟩ :=
      applyAll_of_isSkipped config hinside.wellNested hstack htop hactive
    obtain rfl := Except.ok.inj (h.symm.trans hm)
    exact applyAll_of_isSkipped config hwrapped hstack htop hactive
  | false =>
    let p : Padding := ⟨name, b.collectsText⟩
    let x : OpenElement := ⟨name, b.stack.srs?, .transparent⟩
    have hopen : b.apply config (.opened name attributes) =
        .ok { b with stack := x :: b.stack } := by
      rw [apply, if_neg (by simp [hactive]), openElement_of_unknown hunknown hsystem houter]
    have hfits : p.Fits x b.stack := by
      refine ⟨rfl, rfl, rfl, fun e he => ?_⟩
      have htop : b.stack.head? = some e := he
      refine ⟨by simpa [htop] using houter, fun htext => ?_⟩
      show b.stack.head?.any (·.frame.collectsText) = true
      rw [htop, Option.any_some, htext]
    have hstacks : (same config).view.Stacks p (some 0) b.stack (x :: b.stack) :=
      .padding hfits (Alike.same_stacks config p b.stack)
    have hpadded : (same config).Alike p (some 0) b { b with stack := x :: b.stack } :=
      ⟨(model_self b.model).symm, hstacks, rfl, rfl, rfl⟩
    obtain ⟨hadmits, hindex⟩ : Clears p 0 inside := hinside.clears
    obtain ⟨inner, hinner, halike⟩ := hpadded.applyAll trivial hadmits h
    rw [hindex] at halike
    obtain ⟨closed, hclose, hend⟩ := halike.closePadding (isAborted_of_applyAll hinner hactive)
    obtain ⟨offset, rfl⟩ := hend.exists_offset
    refine ⟨offset, (applyAll_cons_of_ok hopen).trans ?_⟩
    exact (applyAll_append_of_ok hinner).trans (applyAll_cons_of_ok hclose)

end Builder

/-- **Elements without a meaning are transparent.**  A document that is read is read with the same
outcome if an element is put around a block of complete elements that stand side by side.  Its name
must mean nothing, its tag must not name a reference system, and between the elements of the block
no text may stand that the element around them collects. -/
theorem readEvents_wrapped {config : Config} {name : String} {attributes : Markup.Attributes}
    {before inside after : List Event} {outcome : Outcome}
    (hunknown : Element.ofTag (Markup.localName name) attributes = .unknown)
    (hsystem : attributes.value? "srsName" = none)
    (hinside : Block (((Builder.start config).feedAll config before).collectsText = false) inside)
    (h : readEvents config (before ++ inside ++ after) = .ok outcome) :
    readEvents config (before ++ .opened name attributes :: (inside ++ .closed name :: after)) =
      .ok outcome := by
  obtain ⟨b, hb, hstack, rfl⟩ := Builder.exists_of_readEvents_eq_ok h
  rw [List.append_assoc] at hb
  obtain ⟨first, hfirst, hb⟩ := Builder.applyAll_append_eq_ok hb
  obtain ⟨second, hsecond, hafter⟩ := Builder.applyAll_append_eq_ok hb
  rw [Builder.feedAll_of_applyAll hfirst] at hinside
  obtain ⟨offset, hwrapped⟩ := Builder.applyAll_wrapped hunknown hsystem
    (Builder.isAborted_of_applyAll hfirst rfl) hinside hsecond
  obtain ⟨offset', hafter'⟩ := applyAll_offset offset hafter
  have hsplit : .opened name attributes :: (inside ++ .closed name :: after) =
      (.opened name attributes :: (inside ++ [.closed name])) ++ after := by simp
  have hrun : (Builder.start config).applyAll config
      (before ++ .opened name attributes :: (inside ++ .closed name :: after)) =
        .ok { b with offset := offset' } := by
    rw [hsplit, Builder.applyAll_append_of_ok hfirst, Builder.applyAll_append_of_ok hwrapped]
    exact hafter'
  rw [Builder.readEvents_of_applyAll hrun hstack]
  rfl

/-- A building with a height and a triangle. -/
def measuredBuilding : List Event × List Event × List Event :=
  ([.opened "bldg:Building" [("gml:id", "B")]],
   [.opened "bldg:measuredHeight" [("uom", "m")], .text "12.5", .closed "bldg:measuredHeight",
    .text " ",
    .opened "bldg:lod1MultiSurface" [],
    .opened "gml:Polygon" [], .opened "gml:exterior" [], .opened "gml:LinearRing" [],
    .opened "gml:posList" [], .text "0 0 0 4 0 0 4 3 0", .closed "gml:posList",
    .closed "gml:LinearRing", .closed "gml:exterior", .closed "gml:Polygon",
    .closed "bldg:lod1MultiSurface"],
   [.closed "bldg:Building"])

theorem readEvents_measuredBuilding :
    let (before, inside, after) := measuredBuilding
    ∃ outcome, readEvents {} (before ++ inside ++ after) = .ok outcome ∧
      readEvents {} (before ++ .opened "app:survey" [("year", "2009")] ::
        (inside ++ .closed "app:survey" :: after)) = .ok outcome := by
  obtain ⟨outcome, h⟩ := exists_readEvents_of_gridless {} (nestAll_eq_nil_iff.1 (by decide) :
    WellNested (measuredBuilding.1 ++ measuredBuilding.2.1 ++ measuredBuilding.2.2)) (by decide)
  have hcollects :
      ((Builder.start {}).feedAll {} measuredBuilding.1).collectsText = false := by
    decide +kernel
  have hinside : WellNested measuredBuilding.2.1 := nestAll_eq_nil_iff.1 (by decide)
  exact ⟨outcome, h,
    readEvents_wrapped (by decide +kernel) (by decide +kernel) (hinside.block hcollects) h⟩

end CityScene.Document

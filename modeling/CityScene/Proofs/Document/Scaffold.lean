import CityScene.Proofs.Model.Completion
import CityScene.Proofs.Results
import Mathlib.Logic.Relation

/-!
# What content leaves alone

Most of what a tag or a text does is to fill in frames, report faults, define and mention things.
None of that opens or closes elements or moves city objects.  `Builder.Touch` lists these changes
once and for all, and `Builder.Touches` is any number of them in a row.

A property that every single `Touch` keeps only needs to be looked at where elements are pushed and
popped and where objects are attached.  What they all keep is the `scaffold` of the state: the names
of the open elements, the identity and the children of the open objects, the finished objects and
the envelopes of both (`Touches.scaffold_eq`).
-/

namespace CityScene.Document

/-- What of an open city object changes only when an object is attached to it. -/
structure ObjectCore where
  id : String
  kind : Kind
  envelope : Envelope Float
  children : List CityObject
  /-- The object takes in parts of a grid. -/
  hasGrid : Bool

def ObjectParts.core (o : ObjectParts) : ObjectCore :=
  ⟨o.feature.id, o.feature.kind, o.feature.envelope, o.children, o.grid.isSome⟩

/-- The name of an open element, and its object if it is one. -/
structure Level where
  name : String
  object : Option ObjectCore

def Frame.core? (f : Frame) : Option ObjectCore :=
  f.object?.map (·.core)

def OpenElement.level (e : OpenElement) : Level :=
  ⟨e.name, e.frame.core?⟩

/-- The levels of the open elements, innermost first. -/
def Stack.levels (s : Stack) : List Level :=
  s.map OpenElement.level

/-- What of the state only opening, closing and attaching change. -/
structure Scaffold where
  levels : List Level
  objects : List CityObject
  envelope : Envelope Float

def Builder.scaffold (b : Builder) : Scaffold :=
  ⟨b.stack.levels, b.model.objects, b.model.envelope⟩

/-! ### Changes of frames -/

theorem Frame.core?_eq_none {f : Frame} (h : f.isObject = false) : f.core? = none := by
  cases f <;> first | rfl | exact absurd h (by simp [Frame.isObject])

namespace Stack

@[simp]
theorem levels_cons (e : OpenElement) (s : Stack) : levels (e :: s) = e.level :: s.levels := rfl

theorem levels_updateNearest {stop : Frame → Bool} {change : Frame → Option Frame}
    (h : ∀ f g, change f = some g → g.core? = f.core?) (s : Stack) :
    (s.updateNearest stop change).levels = s.levels := by
  induction s with
  | nil => rfl
  | cons e outer ih =>
    cases hc : change e.frame with
    | some g => simp only [updateNearest, hc, levels_cons, OpenElement.level, h _ _ hc]
    | none =>
      by_cases hs : stop e.frame = true
      · simp only [updateNearest, hc, hs, if_true]
      · simp only [updateNearest, hc, if_neg hs, levels_cons, ih]

/-- Only the owner itself is changed, so only there the core must stay. -/
theorem levels_updateOwner {change : Frame → Frame} (s : Stack)
    (h : ∀ f, s.owner? = some f → (change f).core? = f.core?) :
    (s.updateOwner change).levels = s.levels := by
  induction s with
  | nil => rfl
  | cons e outer ih =>
    by_cases ht : e.frame.isTransparent = true
    · have howner : owner? (e :: outer) = owner? outer := by simp [owner?, ht]
      simp only [updateOwner, ht, if_true, levels_cons, ih (howner ▸ h)]
    · have howner : owner? (e :: outer) = some e.frame := by simp [owner?, ht]
      simp only [updateOwner, if_neg ht, levels_cons, OpenElement.level, h _ howner]

theorem levels_updateObject {change : ObjectParts → ObjectParts}
    (h : ∀ o, (change o).core = o.core) (s : Stack) :
    (s.updateObject change).levels = s.levels := by
  refine levels_updateNearest (fun f g hg => ?_) s
  cases f with
  | object o => obtain rfl := Option.some.inj hg; exact congrArg some (h o)
  | _ => cases hg

theorem levels_updateGeometry (change : GeometryParts → GeometryParts) (s : Stack) :
    (s.updateGeometry change).levels = s.levels :=
  levels_updateNearest (fun f _ hg => by cases f <;> cases hg; rfl) s

theorem levels_updatePolygon (change : PolygonParts → PolygonParts) (s : Stack) :
    (s.updatePolygon change).levels = s.levels :=
  levels_updateNearest (fun f _ hg => by cases f <;> cases hg; rfl) s

theorem levels_updateImplicit (change : ImplicitGeometry → ImplicitGeometry) (s : Stack) :
    (s.updateImplicit change).levels = s.levels :=
  levels_updateNearest (fun f _ hg => by cases f <;> cases hg; rfl) s

theorem levels_updateAppearance (change : Appearance → Appearance) (s : Stack) :
    (s.updateAppearance change).levels = s.levels :=
  levels_updateNearest (fun f _ hg => by cases f <;> cases hg; rfl) s

end Stack

/-! ### Frames that take a text or a value -/

namespace Frame

/-- A text gives the frame it stands in new values, never another identity. -/
theorem core?_takeProperty {f g : Frame} {property : Property} {attributes : Markup.Attributes}
    {text : String} (h : f.takeProperty property attributes text = .ok g) :
    g.core? = f.core? := by
  cases f with
  | surfaceData d => obtain ⟨_, -, hg⟩ := exists_of_bind_eq_ok h; cases hg; rfl
  | textureTarget t => obtain ⟨_, -, hg⟩ := exists_of_bind_eq_ok h; cases hg; rfl
  | implicitGeometry i => obtain ⟨_, -, hg⟩ := exists_of_bind_eq_ok h; cases hg; rfl
  | object o =>
    rw [takeProperty] at h
    split at h
    · next grid hgrid =>
      obtain ⟨_, -, hg⟩ := exists_of_bind_eq_ok h
      cases hg
      simp only [core?, object?, Option.map_some, ObjectParts.core, hgrid, Option.isSome_some]
    · cases h
      rfl
  | _ => cases h; rfl

theorem core?_takePoints (kind : PositionText) (points : List (Vec3 Float)) (f : Frame) :
    (f.takePoints kind points).core? = f.core? := by
  cases f with
  | envelope e => cases kind <;> rfl
  | _ => rfl

theorem core?_missPoints (f : Frame) : f.missPoints.core? = f.core? := by
  cases f <;> rfl

theorem core?_takeText (content : String) (f : Frame) :
    (f.takeText content).core? = f.core? := by
  cases f <;> rfl

end Frame

/-! ### Touches -/

namespace Builder

/-- One change that content makes without opening, closing or attaching anything. -/
inductive Touch : Builder → Builder → Prop
  /-- A fault is reported; mentions that lead nowhere are not reported before the end. -/
  | reported (b : Builder) (problem : Problem) (element : Option String)
      (h : problem.kind ≠ .danglingReference) : Touch b (b.report problem element)
  /-- Frames take in values. -/
  | filled (b : Builder) (s : Stack) (h : s.levels = b.stack.levels) :
      Touch b { b with stack := s }
  /-- The texts and the envelope that a document states for its model. -/
  | labelled (b : Builder) (name description srs : Option String)
      (declared : Option (Envelope Float)) :
      Touch b { b with model := { b.model with name, description, srs, declared } }
  | defined (b : Builder) (id : String) (definition : Definition) :
      Touch b { b with model := b.model.register id definition }
  | mentioned (b : Builder) (r : Reference) :
      Touch b { b with model := b.model.recordReference r }
  /-- An identifier is generated. -/
  | numbered (b : Builder) : Touch b { b with generated := b.generated + 1 }

abbrev Touches : Builder → Builder → Prop :=
  Relation.ReflTransGen Touch

theorem Touch.touches {b b' : Builder} (h : Touch b b') : Touches b b' :=
  .single h

theorem Touch.scaffold_eq {b b' : Builder} (h : Touch b b') : b'.scaffold = b.scaffold := by
  cases h with
  | filled s hs => rw [scaffold, hs, scaffold]
  | mentioned r =>
    rcases b.model.recordReference_cases r with h | h <;> simp only [scaffold, h]
  | _ => rfl

/-- **Content leaves the scaffold alone.** -/
theorem Touches.scaffold_eq {b b' : Builder} (h : Touches b b') : b'.scaffold = b.scaffold := by
  induction h with
  | refl => rfl
  | tail _ h ih => exact h.scaffold_eq.trans ih

end Builder

end CityScene.Document

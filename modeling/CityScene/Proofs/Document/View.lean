import CityScene.Proofs.Document.Nesting
import CityScene.Proofs.Model.Polygons

/-!
# One run as seen in another

Two runs that go through the same events have the same elements open, but what they hold may differ:
polygons with and without a mesh, objects that one run keeps and the other drops.  A `View` says how
the parts of the first run look in the second.  Besides, the second run may have a transparent
element open that the first has not, its `Padding`.

`View.Stacks` relates the open elements of two such runs.  Nothing that is done to them can tell
them apart: what is looked for is found in the same place, whether it is the owner, the nearest
object or the nearest part of an object (`owner?_eq`, `nearest?_eq`), and what is changed is changed
in the same place (`updateOwner`, `updateNearest`).
-/

namespace CityScene.Document

/-! ### Views -/

/-- How what one run builds looks in another. -/
structure View where
  polygon : Polygon → Polygon
  /-- What becomes of finished objects that stand side by side. -/
  forest : List CityObject → List CityObject

namespace View

variable (v : View)

def feature (f : Feature) : Feature :=
  f.mapEach v.polygon v.polygon

def object (o : ObjectParts) : ObjectParts :=
  { o with feature := v.feature o.feature, children := v.forest o.children }

def geometry (g : GeometryParts) : GeometryParts :=
  { g with polygons := g.polygons.map v.polygon }

def frame : Frame → Frame
  | .object o => .object (v.object o)
  | .geometry g => .geometry (v.geometry g)
  | .implicitGeometry g => .implicitGeometry (g.mapPolygons v.polygon)
  | f => f

def element (e : OpenElement) : OpenElement :=
  { e with frame := v.frame e.frame }

def model (m : Model) : Model :=
  { m with
    objects := v.forest m.objects
    registry := m.registry.map (·.mapPolygons v.polygon) }

theorem exists_of_frame_eq_object {f : Frame} {o' : ObjectParts} (h : v.frame f = .object o') :
    ∃ o, f = .object o ∧ v.object o = o' := by
  cases f with
  | object o => exact ⟨o, rfl, Frame.object.inj h⟩
  | _ => cases h

theorem isTransparent_frame (f : Frame) : (v.frame f).isTransparent = f.isTransparent := by
  cases f <;> rfl

theorem isSkipped_frame (f : Frame) : (v.frame f).isSkipped = f.isSkipped := by
  cases f <;> rfl

theorem isTemplate_frame (f : Frame) : (v.frame f).isTemplate = f.isTemplate := by
  cases f <;> rfl

theorem isObject_frame (f : Frame) : (v.frame f).isObject = f.isObject := by
  cases f <;> rfl

theorem endsPolygon_frame (f : Frame) :
    Stack.endsPolygon (v.frame f) = Stack.endsPolygon f := by
  cases f <;> rfl

end View

namespace Frame

/-- The frame takes in character data. -/
def collectsText : Frame → Bool
  | text _ => true
  | _ => false

/-- Whether a frame is skipped and whether it collects text.  No change of a frame changes that. -/
def role (f : Frame) : Bool × Bool :=
  (f.isSkipped, f.collectsText)

end Frame

/-! ### Padding -/

/-- A transparent element that only the second of two runs has open. -/
structure Padding where
  name : String := ""
  /-- Whether the element around it may collect text. -/
  inText : Bool := false

/-- The element may stand on top of these open elements: it has their reference system, and the
innermost of them is not skipped. -/
structure Padding.Fits (p : Padding) (x : OpenElement) (s : Stack) : Prop where
  name : x.name = p.name
  srs : x.srs = s.srs?
  frame : x.frame = .transparent
  outer : ∀ e ∈ s.head?,
    e.frame.isSkipped = false ∧ (e.frame.collectsText = true → p.inText = true)

/-- Only the reference system and the role of the innermost element matter. -/
theorem Padding.Fits.congr {p : Padding} {x : OpenElement} {s t : Stack} (h : p.Fits x s)
    (hsrs : t.srs? = s.srs?)
    (hrole : t.head?.map (·.frame.role) = s.head?.map (·.frame.role)) : p.Fits x t where
  name := h.name
  srs := h.srs.trans hsrs.symm
  frame := h.frame
  outer e he := by
    have hsome : s.head?.map (·.frame.role) = some e.frame.role := by
      rw [← hrole, Option.mem_def.1 he, Option.map_some]
    obtain ⟨e', he', heq⟩ := Option.map_eq_some_iff.1 hsome
    have hskip : e'.frame.isSkipped = e.frame.isSkipped := congrArg Prod.fst heq
    have htext : e'.frame.collectsText = e.frame.collectsText := congrArg Prod.snd heq
    rw [← hskip, ← htext]
    exact h.outer e' he'

namespace Stack

variable (s : Stack)

theorem owner?_of_isTransparent {e : OpenElement} (h : e.frame.isTransparent = true) :
    owner? (e :: s) = s.owner? := by
  simp [owner?, h]

theorem owner?_of_not_isTransparent {e : OpenElement} (h : e.frame.isTransparent = false) :
    owner? (e :: s) = some e.frame := by
  simp [owner?, h]

theorem updateOwner_of_isTransparent {e : OpenElement} (h : e.frame.isTransparent = true)
    (change : Frame → Frame) : updateOwner change (e :: s) = e :: s.updateOwner change :=
  if_pos h

theorem updateOwner_of_not_isTransparent {e : OpenElement} (h : e.frame.isTransparent = false)
    (change : Frame → Frame) :
    updateOwner change (e :: s) = { e with frame := change e.frame } :: s :=
  if_neg (by simp [h])

/-! What changes of frames leave of the innermost element. -/

theorem srs?_updateOwner (change : Frame → Frame) : (s.updateOwner change).srs? = s.srs? := by
  cases s with
  | nil => rfl
  | cons e s => rw [updateOwner]; split <;> rfl

theorem srs?_updateNearest (stop : Frame → Bool) (change : Frame → Option Frame) :
    (s.updateNearest stop change).srs? = s.srs? := by
  cases s with
  | nil => rfl
  | cons e s =>
    rw [updateNearest]
    split
    · rfl
    · split <;> rfl

theorem role_updateOwner {change : Frame → Frame}
    (h : ∀ f, s.owner? = some f → (change f).role = f.role) :
    (s.updateOwner change).head?.map (·.frame.role) = s.head?.map (·.frame.role) := by
  cases s with
  | nil => rfl
  | cons e s =>
    cases ht : e.frame.isTransparent with
    | true => rw [updateOwner_of_isTransparent s ht]; rfl
    | false =>
      rw [updateOwner_of_not_isTransparent s ht]
      exact congrArg some (h _ (owner?_of_not_isTransparent s ht))

theorem role_updateNearest {stop : Frame → Bool} {change : Frame → Option Frame}
    (h : ∀ f g, change f = some g → g.role = f.role) :
    (s.updateNearest stop change).head?.map (·.frame.role) = s.head?.map (·.frame.role) := by
  cases s with
  | nil => rfl
  | cons e s =>
    rw [updateNearest]
    split
    · next g hg => exact congrArg some (h _ _ hg)
    · split <;> rfl

end Stack

/-! ### Open elements seen in another run -/

/-- The second run has the elements of the first open as the view shows them.  The index says below
how many of them the padding stands, if it is there. -/
inductive View.Stacks (v : View) (p : Padding) : Option Nat → Stack → Stack → Prop
  | nil : Stacks v p none [] []
  | cons (e : OpenElement) {i : Option Nat} {s s' : Stack} (h : Stacks v p i s s') :
      Stacks v p (i.map (· + 1)) (e :: s) (v.element e :: s')
  | padding {x : OpenElement} {s s' : Stack} (hx : p.Fits x s) (h : Stacks v p none s s') :
      Stacks v p (some 0) s (x :: s')

namespace View.Stacks

variable {v : View} {p : Padding} {i : Option Nat} {s s' : Stack}

/-- Without padding the second run just has the elements that the view shows. -/
theorem of_map (v : View) (p : Padding) (s : Stack) : Stacks v p none s (s.map v.element) := by
  induction s with
  | nil => exact .nil
  | cons e s ih => exact .cons e ih

theorem eq_map (h : Stacks v p none s s') : s' = s.map v.element := by
  generalize hi : (none : Option Nat) = i at h
  induction h with
  | nil => rfl
  | @cons e i s s' h ih =>
    cases i with
    | none => rw [List.map_cons, ← ih rfl]
    | some k => cases hi
  | padding hx h => cases hi

theorem srs?_eq (h : v.Stacks p i s s') : s'.srs? = s.srs? := by
  cases h with
  | nil => rfl
  | cons e h => rfl
  | padding hx h => exact hx.srs

/-- One run skips what comes next if and only if the other does. -/
theorem isSkipped_eq (h : v.Stacks p i s s') :
    s'.head?.any (·.frame.isSkipped) = s.head?.any (·.frame.isSkipped) := by
  cases h with
  | nil => rfl
  | cons e h => exact v.isSkipped_frame e.frame
  | padding hx h =>
    show Frame.isSkipped _ = _
    rw [hx.frame]
    cases s with
    | nil => rfl
    | cons e s => exact (hx.outer e rfl).1.symm

theorem inTemplate_eq (h : v.Stacks p i s s') : s'.inTemplate = s.inTemplate := by
  induction h with
  | nil => rfl
  | @cons e i s s' h ih =>
    show ((v.frame e.frame).isTemplate || Stack.inTemplate s') =
      (e.frame.isTemplate || Stack.inTemplate s)
    rw [ih, v.isTemplate_frame]
  | @padding x s s' hx h ih =>
    show (x.frame.isTemplate || Stack.inTemplate s') = Stack.inTemplate s
    rw [ih, hx.frame]
    rfl

/-! ### Searching -/

theorem owner?_eq (h : v.Stacks p i s s') : s'.owner? = s.owner?.map v.frame := by
  induction h with
  | nil => rfl
  | @cons e i s s' h ih =>
    have helement := v.isTransparent_frame e.frame
    cases ht : e.frame.isTransparent with
    | true =>
      rw [Stack.owner?_of_isTransparent s ht, Stack.owner?_of_isTransparent s' (helement.trans ht),
        ih]
    | false =>
      rw [Stack.owner?_of_not_isTransparent s ht,
        Stack.owner?_of_not_isTransparent s' (helement.trans ht)]
      rfl
  | @padding x s s' hx h ih =>
    rw [Stack.owner?_of_isTransparent s' (by rw [hx.frame]; rfl), ih]

/-- What looks the same in a view is found in the same place. -/
theorem nearest?_eq {α β : Type} {stop : Frame → Bool} {select : Frame → Option α}
    {select' : Frame → Option β} {view : α → β} (h : v.Stacks p i s s')
    (hselect : ∀ f, select' (v.frame f) = (select f).map view)
    (hstop : ∀ f, stop (v.frame f) = stop f) (htransparent : select .transparent = none)
    (hpass : stop .transparent = false) :
    s'.nearest? stop select' = (s.nearest? stop select).map view := by
  induction h with
  | nil => rfl
  | @cons e i s s' h ih =>
    have hfound : select' (v.element e).frame = (select e.frame).map view := hselect e.frame
    have hstops : stop (v.element e).frame = stop e.frame := hstop e.frame
    rw [Stack.nearest?, Stack.nearest?, hfound, hstops, ih]
    cases select e.frame with
    | some a => rfl
    | none => dsimp only [Option.map_none]; split <;> rfl
  | @padding x s s' hx h ih =>
    have hx' : select' .transparent = none := by
      rw [← Option.map_none (f := view), ← htransparent]
      exact hselect .transparent
    rw [Stack.nearest?, hx.frame, hx', hpass]
    exact ih

/-- What is the same in a view is found as it is. -/
theorem nearest?_same {α : Type} {stop : Frame → Bool} {select : Frame → Option α}
    (h : v.Stacks p i s s') (hselect : ∀ f, select (v.frame f) = select f)
    (hstop : ∀ f, stop (v.frame f) = stop f) (htransparent : select .transparent = none)
    (hpass : stop .transparent = false) : s'.nearest? stop select = s.nearest? stop select := by
  have hview : ∀ f, select (v.frame f) = (select f).map id := fun f => by
    rw [hselect, Option.map_id, id]
  rw [h.nearest?_eq hview hstop htransparent hpass, Option.map_id, id]

theorem object?_eq (h : v.Stacks p i s s') : s'.object? = s.object?.map v.object :=
  h.nearest?_eq (fun f => by cases f <;> rfl) (fun _ => rfl) rfl rfl

theorem objectId?_eq (h : v.Stacks p i s s') : s'.objectId? = s.objectId? := by
  rw [Stack.objectId?, h.object?_eq, Option.map_map]
  rfl

theorem polygon?_eq (h : v.Stacks p i s s') : s'.polygon? = s.polygon? :=
  h.nearest?_same (fun f => by cases f <;> rfl) v.endsPolygon_frame rfl rfl

theorem appearance?_eq (h : v.Stacks p i s s') : s'.appearance? = s.appearance? :=
  h.nearest?_same (fun f => by cases f <;> rfl) v.isObject_frame rfl rfl

theorem implicitLod?_eq (h : v.Stacks p i s s') : s'.implicitLod? = s.implicitLod? :=
  h.nearest?_same (fun f => by cases f <;> rfl) (fun _ => rfl) rfl rfl

theorem reliefLod_eq (h : v.Stacks p i s s') : s'.reliefLod = s.reliefLod := by
  rw [Stack.reliefLod, h.object?_eq, Option.bind_map]
  rfl

/-! ### Changing -/

/-- The owner is changed in the same place. -/
theorem updateOwner {change change' : Frame → Frame} (h : v.Stacks p i s s')
    (hchange : ∀ f, s.owner? = some f →
      change' (v.frame f) = v.frame (change f) ∧ (change f).role = f.role) :
    v.Stacks p i (s.updateOwner change) (s'.updateOwner change') := by
  induction h with
  | nil => exact .nil
  | @cons e i s s' h ih =>
    have helement := v.isTransparent_frame e.frame
    cases ht : e.frame.isTransparent with
    | true =>
      rw [Stack.updateOwner_of_isTransparent s ht,
        Stack.updateOwner_of_isTransparent s' (helement.trans ht)]
      exact .cons e (ih fun f hf => hchange f (by rwa [Stack.owner?_of_isTransparent s ht]))
    | false =>
      have hframe := (hchange _ (Stack.owner?_of_not_isTransparent s ht)).1
      rw [Stack.updateOwner_of_not_isTransparent s ht,
        Stack.updateOwner_of_not_isTransparent s' (helement.trans ht)]
      have hcons := h.cons { e with frame := change e.frame }
      rwa [element, ← hframe] at hcons
  | @padding x s s' hx h ih =>
    rw [Stack.updateOwner_of_isTransparent s' (by rw [hx.frame]; rfl)]
    exact .padding (hx.congr (s.srs?_updateOwner change)
      (s.role_updateOwner fun f hf => (hchange f hf).2)) (ih hchange)

/-- The nearest frame of a kind is changed in the same place. -/
theorem updateNearest {stop : Frame → Bool} {change change' : Frame → Option Frame}
    (h : v.Stacks p i s s') (hchange : ∀ f, change' (v.frame f) = (change f).map v.frame)
    (hrole : ∀ f g, change f = some g → g.role = f.role)
    (hstop : ∀ f, stop (v.frame f) = stop f) (htransparent : change .transparent = none)
    (hpass : stop .transparent = false) :
    v.Stacks p i (s.updateNearest stop change) (s'.updateNearest stop change') := by
  induction h with
  | nil => exact .nil
  | @cons e i s s' h ih =>
    have hframe : change' (v.element e).frame = (change e.frame).map v.frame := hchange e.frame
    have hstops : stop (v.element e).frame = stop e.frame := hstop e.frame
    cases hc : change e.frame with
    | some g =>
      rw [hc] at hframe
      simp only [Stack.updateNearest, hc, hframe, Option.map_some]
      exact h.cons { e with frame := g }
    | none =>
      rw [hc] at hframe
      simp only [Stack.updateNearest, hc, hframe, Option.map_none, hstops]
      split
      · exact h.cons e
      · exact ih.cons e
  | @padding x s s' hx h ih =>
    have hx' : change' .transparent = none := by
      rw [← Option.map_none (f := v.frame), ← htransparent]
      exact hchange .transparent
    have htail : Stack.updateNearest stop change' (x :: s') =
        x :: Stack.updateNearest stop change' s' := by
      simp only [Stack.updateNearest, hx.frame, hx', hpass, Bool.false_eq_true, if_false]
    rw [htail]
    exact .padding (hx.congr (s.srs?_updateNearest stop change) (s.role_updateNearest hrole)) ih

theorem updateObject {change change' : ObjectParts → ObjectParts} (h : v.Stacks p i s s')
    (hchange : ∀ o, change' (v.object o) = v.object (change o)) :
    v.Stacks p i (s.updateObject change) (s'.updateObject change') := by
  refine h.updateNearest (fun f => ?_) (fun f g hg => ?_) (fun _ => rfl) rfl rfl
  · cases f with
    | object o => exact congrArg (fun o => some (Frame.object o)) (hchange o)
    | _ => rfl
  · cases f <;> cases hg
    rfl

theorem updateGeometry {change change' : GeometryParts → GeometryParts} (h : v.Stacks p i s s')
    (hchange : ∀ g, change' (v.geometry g) = v.geometry (change g)) :
    v.Stacks p i (s.updateGeometry change) (s'.updateGeometry change') := by
  refine h.updateNearest (fun f => ?_) (fun f g hg => ?_) v.isObject_frame rfl rfl
  · cases f with
    | geometry g => exact congrArg (fun g => some (Frame.geometry g)) (hchange g)
    | _ => rfl
  · cases f <;> cases hg
    rfl

theorem updatePolygon (h : v.Stacks p i s s') (change : PolygonParts → PolygonParts) :
    v.Stacks p i (s.updatePolygon change) (s'.updatePolygon change) :=
  h.updateNearest (fun f => by cases f <;> rfl) (fun f g hg => by cases f <;> cases hg; rfl)
    v.endsPolygon_frame rfl rfl

theorem updateImplicit {change change' : ImplicitGeometry → ImplicitGeometry}
    (h : v.Stacks p i s s')
    (hchange : ∀ g, change' (g.mapPolygons v.polygon) = (change g).mapPolygons v.polygon) :
    v.Stacks p i (s.updateImplicit change) (s'.updateImplicit change') := by
  refine h.updateNearest (fun f => ?_) (fun f g hg => ?_) v.isObject_frame rfl rfl
  · cases f with
    | implicitGeometry g => exact congrArg (fun g => some (Frame.implicitGeometry g)) (hchange g)
    | _ => rfl
  · cases f <;> cases hg
    rfl

theorem updateAppearance (h : v.Stacks p i s s') (change : Appearance → Appearance) :
    v.Stacks p i (s.updateAppearance change) (s'.updateAppearance change) :=
  h.updateNearest (fun f => by cases f <;> rfl) (fun f g hg => by cases f <;> cases hg; rfl)
    v.isObject_frame rfl rfl

end View.Stacks

end CityScene.Document

import CityScene.Proofs.Document.Comparison

/-!
# Runs that stay alike

What the handlers keep, whole events keep, and so do whole runs: alike states stay alike from event
to event (`Alike.apply`), so that the second run succeeds if the first does, with an alike result
(`Alike.applyAll`).  All the while the index says how deep the padding stands; only while it is the
innermost element is there something to demand of an event (`Admits`).

Three comparisons are made here.  Under `ofPolygons` the second run keeps the objects that the first
keeps, and only polygons may look different in it.  Under `same` nothing does, so that alike states
differ in the offset at most (`Alike.exists_offset`), and under `reporting` nothing but the reports
from before the runs (`applyAll_diagnostics`).
-/

namespace CityScene.Document

/-! ### Runs and outcomes -/

theorem Builder.isAborted_of_applyAll {config : Config} {events : List Event} {b b' : Builder}
    (h : b.applyAll config events = .ok b') (hactive : b.isAborted = false) :
    b'.isAborted = false :=
  applyAll_invariant (fun hstep hactive => hstep.isAborted_eq.trans hactive) h hactive

/-- A run that leaves no element open ends with the outcome that its last state completes to. -/
theorem Builder.readEvents_of_applyAll {config : Config} {events : List Event} {b : Builder}
    (h : (start config).applyAll config events = .ok b) (hstack : b.stack = []) :
    readEvents config events = .ok (b.complete config) := by
  have hactive := isAborted_of_applyAll h rfl
  show ((start config).applyAll config events).bind (·.finish config) = _
  rw [h]
  show b.finish config = _
  rw [finish, hactive, hstack]
  rfl

theorem Builder.applyAll_cons_of_ok {config : Config} {b m : Builder} {e : Event}
    {events : List Event} (h : b.apply config e = .ok m) :
    b.applyAll config (e :: events) = m.applyAll config events := by
  rw [applyAll, List.foldlM_cons, h]
  rfl

theorem Builder.applyAll_append_of_ok {config : Config} {b m : Builder} {s t : List Event}
    (h : b.applyAll config s = .ok m) : b.applyAll config (s ++ t) = m.applyAll config t := by
  rw [applyAll, List.foldlM_append]
  show (b.applyAll config s).bind (·.applyAll config t) = _
  rw [h]
  rfl

/-- A run is one through its first events, and then one through the others. -/
theorem Builder.applyAll_append_eq_ok {config : Config} {b b' : Builder} {s t : List Event}
    (h : b.applyAll config (s ++ t) = .ok b') :
    ∃ m, b.applyAll config s = .ok m ∧ m.applyAll config t = .ok b' := by
  rw [applyAll, List.foldlM_append] at h
  exact exists_of_bind_eq_ok h

/-- Going on after refused events makes no difference where none is refused. -/
theorem Builder.feedAll_of_applyAll {config : Config} {b m : Builder} {events : List Event}
    (h : b.applyAll config events = .ok m) : b.feedAll config events = m := by
  induction events generalizing b with
  | nil => exact Except.ok.inj h
  | cons e events ih =>
    obtain ⟨n, he, hrest⟩ := applyAll_cons_eq_ok h
    rw [feedAll_cons, feed_of_ok he]
    exact ih hrest

namespace Comparison

/-! ### Where the padding stands -/

/-- Below how many elements the padding stands after an event. -/
def indexAfter (i : Option Nat) : Event → Option Nat
  | .opened _ _ => i.map (· + 1)
  | .closed _ => i.map (· - 1)
  | .text _ | .offset _ => i

/-- Where the padding is the innermost element, it must not be closed, nor take in a text that the
element around it collects. -/
def Admits (p : Padding) (i : Option Nat) : Event → Prop
  | .closed _ => i ≠ some 0
  | .text _ => i = some 0 → p.inText = false
  | .opened _ _ | .offset _ => True

/-- The padding admits each event of a sequence where it then stands. -/
def AdmitsAll (p : Padding) (i : Option Nat) : List Event → Prop
  | [] => True
  | e :: events => Admits p i e ∧ AdmitsAll p (indexAfter i e) events

theorem admitsAll_append {p : Padding} {i : Option Nat} {s t : List Event} :
    AdmitsAll p i (s ++ t) ↔ AdmitsAll p i s ∧ AdmitsAll p (s.foldl indexAfter i) t := by
  induction s generalizing i with
  | nil => exact (iff_of_eq (true_and _)).symm
  | cons e s ih => rw [List.cons_append, AdmitsAll, AdmitsAll, ih, and_assoc, List.foldl_cons]

/-- Without padding there is nothing to demand. -/
theorem admitsAll_none (p : Padding) (events : List Event) :
    AdmitsAll p none events ∧ events.foldl indexAfter none = none := by
  induction events with
  | nil => exact ⟨trivial, rfl⟩
  | cons e events ih =>
    have hadmits : Admits p none e := by
      cases e with
      | closed name => exact nofun
      | text content => exact nofun
      | _ => trivial
    have hindex : indexAfter none e = none := by cases e <;> rfl
    rw [AdmitsAll, List.foldl_cons, hindex]
    exact ⟨⟨hadmits, ih.1⟩, ih.2⟩

namespace Alike

variable {C : Comparison} {p : Padding} {i : Option Nat} {b b' : Builder}

/-! ### Events -/

theorem closeElement (h : C.Alike p i b b') (hsound : C.sound b) (hi : i ≠ some 0)
    {name : String} {m : Builder} (hclose : b.closeElement C.config name = .ok m) :
    ∃ m', b'.closeElement C.config' name = .ok m' ∧ C.Alike p (i.map (· - 1)) m m' := by
  obtain ⟨e, outer, hs, rfl, hframe⟩ := Builder.exists_of_closeElement hclose
  have hstack := h.stack
  rw [hs] at hstack
  generalize hs' : b'.stack = s' at hstack
  cases hstack with
  | @cons _ j _ outer' hstack =>
    have hj : (j.map (· + 1)).map (· - 1) = j := by cases j <;> rfl
    obtain ⟨m', hm', halike⟩ := (h.withStack hstack).closeFrame e.srs e.frame
      (fun o ho => C.keeps hsound hs ho) hframe
    rw [hj]
    exact ⟨m', Builder.closeElement_of_closeFrame (e := C.view.element e) hs' hm', halike⟩
  | padding hx hstack => exact absurd rfl hi

/-- **Alike runs stay alike.** -/
theorem apply (h : C.Alike p i b b') (hsound : C.sound b) {e : Event} (he : Admits p i e)
    {m : Builder} (happly : b.apply C.config e = .ok m) :
    ∃ m', b'.apply C.config' e = .ok m' ∧ C.Alike p (indexAfter i e) m m' := by
  cases e with
  | offset bytes =>
    obtain rfl := Except.ok.inj happly
    exact ⟨_, rfl, ⟨h.model, h.stack, h.diagnostics, h.generated, h.isAborted⟩⟩
  | opened name attributes =>
    rw [Builder.apply] at happly ⊢
    rw [h.isAborted]
    split at happly
    · cases happly
    · next hactive =>
      obtain rfl := Except.ok.inj happly
      exact ⟨_, if_neg hactive, h.openElement name attributes⟩
  | text content =>
    rw [Builder.apply] at happly ⊢
    rw [h.isAborted]
    split at happly
    · cases happly
    · next hactive =>
      obtain rfl := Except.ok.inj happly
      exact ⟨_, if_neg hactive, h.addText content he⟩
  | closed name =>
    rw [Builder.apply] at happly ⊢
    rw [h.isAborted]
    split at happly
    · cases happly
    · next hactive =>
      rw [if_neg hactive]
      exact h.closeElement hsound he happly

/-- **What one run does, the other does alike.** -/
theorem applyAll {events : List Event} (h : C.Alike p i b b') (hsound : C.sound b)
    (hadmits : AdmitsAll p i events) {m : Builder} (happly : b.applyAll C.config events = .ok m) :
    ∃ m', b'.applyAll C.config' events = .ok m' ∧
      C.Alike p (events.foldl indexAfter i) m m' := by
  induction events generalizing i b b' with
  | nil =>
    obtain rfl := Except.ok.inj happly
    exact ⟨b', rfl, h⟩
  | cons e events ih =>
    obtain ⟨n, he, hrest⟩ := Builder.applyAll_cons_eq_ok happly
    obtain ⟨n', he', hn⟩ := h.apply hsound hadmits.1 he
    obtain ⟨m', hm', halike⟩ := ih hn (C.sound_apply hsound he) hadmits.2 hrest
    exact ⟨m', (Builder.applyAll_cons_of_ok he').trans hm', halike⟩

/-- Without padding, any events will do. -/
theorem applyAll_none {events : List Event} (h : C.Alike p none b b') (hsound : C.sound b)
    {m : Builder} (happly : b.applyAll C.config events = .ok m) :
    ∃ m', b'.applyAll C.config' events = .ok m' ∧ C.Alike p none m m' := by
  obtain ⟨hadmits, hindex⟩ := admitsAll_none p events
  have hrun := h.applyAll hsound hadmits happly
  rwa [hindex] at hrun

/-! Without padding, neither run gets further than the other. -/

theorem names_eq (h : C.Alike p none b b') : b'.names = b.names := by
  rw [Builder.names, Builder.names, h.stack.eq_map, List.map_map]
  rfl

theorem fits_iff (h : C.Alike p none b b') : b'.Fits ↔ b.Fits := by
  rw [Builder.Fits, Builder.Fits, h.stack.eq_map, List.head?_map]
  constructor
  · intro hfits e o grid he ho hgrid
    refine hfits (C.view.element e) (C.view.object o) grid (by rw [he]; rfl) ?_ hgrid
    rw [View.element, ho]
    rfl
  · intro hfits e' o' grid he' ho' hgrid
    obtain ⟨e, he, rfl⟩ := Option.map_eq_some_iff.1 he'
    obtain ⟨o, ho, rfl⟩ := C.view.exists_of_frame_eq_object ho'
    exact hfits e o grid he ho hgrid

theorem exists_apply_iff (h : C.Alike p none b b') (e : Event) :
    (∃ m', b'.apply C.config' e = .ok m') ↔ ∃ m, b.apply C.config e = .ok m := by
  rw [Builder.exists_apply_iff, Builder.exists_apply_iff, h.isAborted, h.names_eq]
  cases e with
  | closed name => simp only [Builder.FitsFor, h.fits_iff]
  | _ => rfl

/-- **What the second run does, the first has done alike.** -/
theorem exists_applyAll {events : List Event} (h : C.Alike p none b b') (hsound : C.sound b)
    {m' : Builder} (happly : b'.applyAll C.config' events = .ok m') :
    ∃ m, b.applyAll C.config events = .ok m ∧ C.Alike p none m m' := by
  induction events generalizing b b' with
  | nil =>
    obtain rfl := Except.ok.inj happly
    exact ⟨b, rfl, h⟩
  | cons e events ih =>
    obtain ⟨n', he', hrest⟩ := Builder.applyAll_cons_eq_ok happly
    obtain ⟨n, he⟩ := (h.exists_apply_iff e).1 ⟨n', he'⟩
    obtain ⟨hadmits, hindex⟩ := admitsAll_none p [e]
    obtain ⟨n'', he'', hn⟩ := h.apply hsound hadmits.1 he
    obtain rfl := Except.ok.inj (he'.symm.trans he'')
    rw [show indexAfter none e = none from hindex] at hn
    obtain ⟨m, hm, halike⟩ := ih hn (C.sound_apply hsound he) hrest
    exact ⟨m, (Builder.applyAll_cons_of_ok he).trans hm, halike⟩

theorem start (C : Comparison) (p : Padding) (hshared : C.config'.shared = C.config.shared)
    (hlogs : C.logs [] []) : C.Alike p none (.start C.config) (.start C.config') where
  model := by
    rw [Builder.start, Builder.start, View.model, C.forest_nil, hshared]
    rfl
  stack := .nil
  diagnostics := hlogs
  generated := rfl
  isAborted := rfl

/-- Where one run has no element open, the other has none, either. -/
theorem stack_eq_nil_iff (h : C.Alike p none b b') : b'.stack = [] ↔ b.stack = [] := by
  rw [h.stack.eq_map, List.map_eq_nil_iff]

end Alike

/-! ### The same objects -/

section OfPolygons

variable {change : Polygon → Polygon}

/-- The view under which the same objects are kept, and each polygon is changed. -/
def everyPolygon (change : Polygon → Polygon) : View :=
  ⟨change, Tree.forestMap (·.mapEach change change)⟩

theorem addChild_map (change : Polygon → Polygon) (parent : ObjectParts) (child : CityObject) :
    ((everyPolygon change).object parent).addChild (child.map (·.mapEach change change)) =
      (everyPolygon change).object (parent.addChild child) := by
  have hlabel := Tree.label_map (fun f : Feature => f.mapEach change change) child
  rw [ObjectParts.addChild, hlabel, View.object, View.object, ObjectParts.addChild]
  dsimp only [everyPolygon]
  rw [Tree.forestMap_append]
  rfl

theorem addObject_map (change : Polygon → Polygon) (m : Model) (o : CityObject) :
    ((everyPolygon change).model m).addObject (o.map (·.mapEach change change)) =
      (everyPolygon change).model (m.addObject o) := by
  have hlabel := Tree.label_map (fun f : Feature => f.mapEach change change) o
  rw [Model.addObject, hlabel, View.model, View.model, Model.addObject]
  dsimp only [everyPolygon]
  rw [Tree.forestMap_append]
  rfl

theorem finish_object (hchange : KeepsRings change) (o : ObjectParts)
    (coverage : Option GridCoverage) :
    ((everyPolygon change).object o).finish coverage =
      (o.finish coverage).map (Tree.map (·.mapEach change change)) := by
  have henvelope := Feature.ownEnvelope_mapEach hchange hchange { o.feature with coverage }
  show (Feature.mapEach { o.feature with coverage } change change).ownEnvelope.map _ = _
  rw [henvelope, ObjectParts.finish]
  cases Feature.ownEnvelope { o.feature with coverage } <;> rfl

/-- Whether an object is kept does not depend on its polygons, nor does what it is attached to. -/
theorem keeps_everyPolygon (config : Config) (hchange : KeepsRings change) (o : ObjectParts) :
    (everyPolygon change).Keeps config config o := by
  intro coverage object object' hfinish hfinish'
  rw [finish_object hchange, hfinish] at hfinish'
  obtain rfl := Except.ok.inj hfinish'
  have hkept : config.kept (object.map (·.mapEach change change)) =
      (config.kept object).map (Tree.map (·.mapEach change change)) := by
    simp only [Config.kept, CityObject.isEmpty_map]
    split <;> rfl
  rw [hkept]
  constructor
  · intro parent
    rw [List.foldl_map]
    exact List.foldl_hom _ fun parent child => addChild_map change parent child
  · intro m
    rw [List.foldl_map]
    exact List.foldl_hom _ fun m o => addObject_map change m o

/-- Two readings that keep the same objects, in which only polygons may look different. -/
def ofPolygons (config : Config) (mode : TessellationMode) (smooth : Bool)
    (change : Polygon → Polygon) (logs : List Diagnostic → List Diagnostic → Prop)
    (hchange : KeepsRings change)
    (hmeshed : ∀ p, p.mesh = .pending →
      Config.meshed { config with mode, smooth } p = change (config.meshed p))
    (hreport : ∀ {l l'} d, logs l l' → logs (l ++ [d]) (l' ++ [d]))
    (hreports : ∀ {l l'} p element, p.mesh = .pending → logs l l' →
      logs (l ++ (config.meshed p).reports element)
        (l' ++ (Config.meshed { config with mode, smooth } p).reports element)) : Comparison where
  config
  config' := { config with mode, smooth }
  view := everyPolygon change
  logs
  lods := rfl
  kinds := rfl
  closedRings := rfl
  reprojection := rfl
  keepsRings := hchange
  meshed := hmeshed
  forest_nil := rfl
  logs_report := hreport
  logs_meshed := hreports
  keeps _ _ _ := keeps_everyPolygon config hchange _

end OfPolygons

/-! ### The same configuration -/

theorem forest_self (forest : List CityObject) :
    (everyPolygon fun p => p).forest forest = forest := by
  have hfeature : (fun f : Feature => f.mapEach (fun p => p) fun p => p) = fun f => f :=
    funext Feature.mapEach_self
  show Tree.forestMap (fun f : Feature => f.mapEach (fun p => p) fun p => p) forest = forest
  rw [hfeature, Tree.forestMap_self]

theorem model_self (m : Model) : (everyPolygon fun p => p).model m = m := by
  rw [View.model, forest_self, everyPolygon, Table.map_self Definition.mapPolygons_self]

theorem element_self (e : OpenElement) : (everyPolygon fun p => p).element e = e := by
  obtain ⟨name, srs, frame⟩ := e
  refine congrArg (OpenElement.mk name srs) ?_
  cases frame with
  | object o =>
    refine congrArg Frame.object ?_
    rw [View.object, forest_self, View.feature, everyPolygon, Feature.mapEach_self]
  | geometry g =>
    refine congrArg Frame.geometry ?_
    rw [View.geometry, everyPolygon, List.map_id']
  | implicitGeometry g => exact congrArg Frame.implicitGeometry g.mapPolygons_self
  | _ => rfl

/-- Two readings under the same configuration, in which nothing looks different. -/
def same (config : Config) : Comparison :=
  ofPolygons config config.mode config.smooth (fun p => p) Eq
    ⟨fun _ => rfl, fun _ => rfl, fun _ => rfl⟩ (fun _ _ => rfl) (fun _ h => by rw [h])
    (fun _ _ _ h => by rw [h])

namespace Alike

variable {config : Config} {p : Padding} {i : Option Nat} {b b' : Builder}

/-- Open elements look like themselves. -/
theorem same_stacks (config : Config) (p : Padding) (s : Stack) :
    (same config).view.Stacks p none s s := by
  have hself := View.Stacks.of_map (same config).view p s
  have hmap : s.map (same config).view.element = s :=
    (List.map_congr_left fun e _ => element_self e).trans (List.map_id' s)
  rwa [hmap] at hself

theorem same_refl (b : Builder) (offset : Option Nat) :
    (same config).Alike p none b { b with offset } where
  model := (model_self b.model).symm
  stack := same_stacks config p b.stack
  diagnostics := rfl
  generated := rfl
  isAborted := rfl

/-- Without padding, alike states differ in the offset at most. -/
theorem exists_offset (h : (same config).Alike p none b b') : ∃ offset, b' = { b with offset } := by
  have hmodel : b'.model = b.model := h.model.trans (model_self b.model)
  have hdiagnostics : b.diagnostics = b'.diagnostics := h.diagnostics
  have hstack : b'.stack = b.stack := by
    rw [h.stack.eq_map, ← (same_stacks config p b.stack).eq_map]
  refine ⟨b'.offset, ?_⟩
  rw [← hmodel, ← hstack, hdiagnostics, ← h.isAborted, ← h.generated]

end Alike

/-- The offset does not matter for what an event does. -/
theorem apply_offset {config : Config} {e : Event} {b m : Builder} (offset : Option Nat)
    (h : b.apply config e = .ok m) :
    ∃ offset', { b with offset }.apply config e = .ok { m with offset := offset' } := by
  have hb : (same config).Alike {} none b { b with offset } := Alike.same_refl b offset
  obtain ⟨hadmits, hindex⟩ := admitsAll_none {} [e]
  obtain ⟨m', hm', halike⟩ := hb.apply trivial hadmits.1 h
  rw [show indexAfter none e = none from hindex] at halike
  obtain ⟨offset', rfl⟩ := halike.exists_offset
  exact ⟨offset', hm'⟩

/-- Two readings under the same configuration, which add the same reports to different ones. -/
def reporting (config : Config) (first second : List Diagnostic) : Comparison :=
  ofPolygons config config.mode config.smooth (fun p => p)
    (fun l l' => ∃ reports, l = first ++ reports ∧ l' = second ++ reports)
    ⟨fun _ => rfl, fun _ => rfl, fun _ => rfl⟩ (fun _ _ => rfl)
    (fun d ⟨reports, h, h'⟩ =>
      ⟨reports ++ [d], by rw [h, List.append_assoc], by rw [h', List.append_assoc]⟩)
    (fun p element _ ⟨reports, h, h'⟩ =>
      ⟨reports ++ (config.meshed p).reports element,
        by rw [h, List.append_assoc], by rw [h', List.append_assoc]⟩)

/-- The reports so far do not matter for what a sequence of events does. -/
theorem applyAll_diagnostics {config : Config} {events : List Event} {b m : Builder}
    (diagnostics : List Diagnostic) (offset : Option Nat) (h : b.applyAll config events = .ok m) :
    ∃ reports offset', m.diagnostics = b.diagnostics ++ reports ∧
      { b with diagnostics, offset }.applyAll config events =
        .ok { m with diagnostics := diagnostics ++ reports, offset := offset' } := by
  have hb : (reporting config b.diagnostics diagnostics).Alike {} none b
      { b with diagnostics, offset } :=
    ⟨(model_self b.model).symm, Alike.same_stacks config {} b.stack,
      ⟨[], (List.append_nil _).symm, (List.append_nil _).symm⟩, rfl, rfl⟩
  obtain ⟨m', hm', halike⟩ := hb.applyAll_none trivial h
  obtain ⟨reports, hreports, hreports'⟩ := halike.diagnostics
  have hmodel : m'.model = m.model := halike.model.trans (model_self m.model)
  have hstack : m'.stack = m.stack :=
    halike.stack.eq_map.trans (Alike.same_stacks config {} m.stack).eq_map.symm
  refine ⟨reports, m'.offset, hreports, hm'.trans (congrArg Except.ok ?_)⟩
  rw [← hmodel, ← hstack, ← hreports', ← halike.isAborted, ← halike.generated]

/-- Nor does the offset. -/
theorem applyAll_offset {config : Config} {events : List Event} {b m : Builder}
    (offset : Option Nat) (h : b.applyAll config events = .ok m) :
    ∃ offset', { b with offset }.applyAll config events = .ok { m with offset := offset' } := by
  obtain ⟨reports, offset', hreports, hrun⟩ := applyAll_diagnostics b.diagnostics offset h
  rw [← hreports] at hrun
  exact ⟨offset', hrun⟩

end Comparison

end CityScene.Document

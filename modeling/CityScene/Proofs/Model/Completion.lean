import CityScene.Document.Event
import CityScene.Proofs.Tree.Listing

/-!
# What completing a model leaves alone

Tessellation gives polygons their meshes, and painting gives them their bindings.  Neither changes a
ring, so a completed model has the objects of the model before but for their polygons: the same
tree, the same features and the same envelopes (`Model.SameShape`).
-/

namespace CityScene

/-- A change of polygons that leaves their identifiers and rings alone. -/
structure KeepsRings (change : Polygon → Polygon) : Prop where
  id : ∀ p, (change p).id = p.id
  exterior : ∀ p, (change p).exterior = p.exterior
  interiors : ∀ p, (change p).interiors = p.interiors

namespace KeepsRings

theorem comp {f g : Polygon → Polygon} (hf : KeepsRings f) (hg : KeepsRings g) :
    KeepsRings (g ∘ f) where
  id p := (hg.id _).trans (hf.id p)
  exterior p := (hg.exterior _).trans (hf.exterior p)
  interiors p := (hg.interiors _).trans (hf.interiors p)

theorem tessellate (smooth : Bool) : KeepsRings (·.tessellate smooth) where
  id p := by rw [Polygon.tessellate]; split <;> rfl
  exterior p := by rw [Polygon.tessellate]; split <;> rfl
  interiors p := by rw [Polygon.tessellate]; split <;> rfl

theorem paint (a : Paint) : KeepsRings (·.paint a) := by
  cases a <;> exact ⟨fun _ => rfl, fun _ => rfl, fun _ => rfl⟩

theorem foldl_paint (paints : List Paint) : KeepsRings (paints.foldl Polygon.paint) := by
  induction paints with
  | nil => exact ⟨fun _ => rfl, fun _ => rfl, fun _ => rfl⟩
  | cons a paints ih => exact (paint a).comp ih

theorem paintPolygon (paints : List (String × Paint)) : KeepsRings (Model.paintPolygon paints) := by
  have h (p : Polygon) : Model.paintPolygon paints p = p ∨
      ∃ own : List Paint, Model.paintPolygon paints p = own.foldl Polygon.paint p := by
    rw [Model.paintPolygon]
    split
    · exact .inl rfl
    · exact .inr ⟨_, rfl⟩
  refine ⟨fun p => ?_, fun p => ?_, fun p => ?_⟩ <;> rcases h p with h | ⟨own, h⟩ <;> rw [h]
  · exact (foldl_paint own).id p
  · exact (foldl_paint own).exterior p
  · exact (foldl_paint own).interiors p

end KeepsRings

/-! ### One change of polygons after another -/

theorem Geometry.mapPolygons_self :
    (fun a : Geometry => a.mapPolygons fun p => p) = fun a => a := by
  funext a
  rw [mapPolygons, List.map_id']

theorem Geometry.mapPolygons_comp (f g : Polygon → Polygon) :
    (fun a : Geometry => (a.mapPolygons f).mapPolygons g) = fun a => a.mapPolygons (g ∘ f) := by
  funext a
  rw [mapPolygons, mapPolygons, mapPolygons, List.map_map]

theorem Feature.mapPolygons_self :
    (fun a : Feature => a.mapPolygons fun p => p) = fun a => a := by
  funext a
  rw [mapPolygons, Geometry.mapPolygons_self, List.map_id']

theorem Feature.mapPolygons_comp (f g : Polygon → Polygon) :
    (fun a : Feature => (a.mapPolygons f).mapPolygons g) = fun a => a.mapPolygons (g ∘ f) := by
  funext a
  rw [mapPolygons, mapPolygons, mapPolygons, List.map_map, ← Geometry.mapPolygons_comp]
  rfl

/-! ### Models of the same shape -/

namespace Model

/-- The second model has the objects of the first, up to the meshes and bindings of polygons. -/
def SameShape (m m' : Model) : Prop :=
  m'.envelope = m.envelope ∧ m'.declared = m.declared ∧ ∃ change, KeepsRings change ∧
    m'.objects = Tree.forestMap (·.mapPolygons change) m.objects

/-- Recording a reference changes no more than what is pending. -/
theorem recordReference_cases (m : Model) (r : Reference) :
    m.recordReference r = m ∨ m.recordReference r = { m with pending := m.pending ++ [r] } := by
  rw [recordReference]
  split
  · exact .inl rfl
  · rw [keepPending]
    split
    · exact .inl rfl
    · exact .inr rfl

namespace SameShape

theorem of_eq {m m' : Model} (henvelope : m'.envelope = m.envelope)
    (hdeclared : m'.declared = m.declared) (hobjects : m'.objects = m.objects) : SameShape m m' :=
  ⟨henvelope, hdeclared, fun p => p, ⟨fun _ => rfl, fun _ => rfl, fun _ => rfl⟩, by
    rw [hobjects, Feature.mapPolygons_self, Tree.forestMap_self]⟩

theorem trans {l m n : Model} (h : SameShape l m) (h' : SameShape m n) : SameShape l n := by
  obtain ⟨henvelope, hdeclared, f, hf, hobjects⟩ := h
  obtain ⟨henvelope', hdeclared', g, hg, hobjects'⟩ := h'
  refine ⟨henvelope'.trans henvelope, hdeclared'.trans hdeclared, g ∘ f, hf.comp hg, ?_⟩
  rw [hobjects', hobjects, Tree.forestMap_forestMap, ← Feature.mapPolygons_comp]
  rfl

theorem mapPolygons {change : Polygon → Polygon} (h : KeepsRings change) (m : Model) :
    SameShape m (m.mapPolygons change) :=
  ⟨rfl, rfl, change, h, rfl⟩

theorem tessellateAll (m : Model) (smooth : Bool) : SameShape m (m.tessellateAll smooth).1 :=
  mapPolygons (.tessellate smooth) m

theorem recordReference (m : Model) (r : Reference) : SameShape m (m.recordReference r) := by
  rcases recordReference_cases m r with h | h <;> rw [h] <;> exact of_eq rfl rfl rfl

theorem foldl_recordReference (m : Model) (references : List Reference) :
    SameShape m (references.foldl Model.recordReference m) := by
  induction references generalizing m with
  | nil => exact of_eq rfl rfl rfl
  | cons r references ih => exact (recordReference m r).trans (ih _)

theorem bindAppearances (m : Model) : SameShape m m.bindAppearances :=
  (mapPolygons (.paintPolygon m.paints) m).trans (foldl_recordReference _ _)

theorem finalize (m : Model) : SameShape m m.finalize.1 :=
  (bindAppearances m).trans (of_eq rfl rfl rfl)

end SameShape

end Model

/-- **Completing a document keeps the shape of its model.** -/
theorem Document.Builder.complete_sameShape (config : Config) (b : Builder) :
    b.model.SameShape (b.complete config).model := by
  rw [complete]
  by_cases h : config.mode = .deferred
  · simp only [if_pos h]
    exact (Model.SameShape.tessellateAll _ _).trans (Model.SameShape.finalize _)
  · simp only [if_neg h]
    exact Model.SameShape.finalize _

end CityScene

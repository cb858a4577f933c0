import CityScene.Proofs.Document.Contents
import CityScene.Proofs.Document.Meshes

/-!
# Models that can come about

A model can be read from a document, told of definitions and references, given objects of another
such model, completed and tessellated, in any order and any number of times (`Model.Reachable`).
A new polygon is not tessellated and not bound to anything; so what is true of such polygons, and
neither tessellation nor paint takes away, is true of all polygons of all these models
(`Model.Reachable.forall_polygons`).
-/

namespace CityScene

open Document

/-- The models that can come about. -/
inductive Model.Reachable : Model → Prop
  | empty (shared : Option Registry) : Reachable { shared }
  /-- The model of a document, as far as that has been read. -/
  | built {config : Config} {events : List Event} {b : Builder}
      (h : (Builder.start config).applyAll config events = .ok b) : Reachable b.model
  | call {m : Model} (c : Call) (h : Reachable m) : Reachable (m.call c)
  | addObject {m m' : Model} {o : CityObject} (h : Reachable m) (h' : Reachable m')
      (ho : o ∈ Tree.forestSubtrees m'.objects) : Reachable (m.addObject o)
  | finalize {m : Model} (h : Reachable m) : Reachable m.finalize.1
  | tessellateAll {m : Model} (smooth : Bool) (h : Reachable m) :
      Reachable (m.tessellateAll smooth).1

namespace Model.Reachable

theorem of_readEvents {config : Config} {events : List Event} {outcome : Outcome}
    (h : readEvents config events = .ok outcome) : outcome.model.Reachable := by
  obtain ⟨b, hb, -, rfl⟩ := Builder.exists_of_readEvents_eq_ok h
  have hbuilt : b.model.Reachable := .built hb
  by_cases hmode : config.mode = .deferred
  · rw [Builder.complete_of_deferred hmode]
    exact (hbuilt.tessellateAll config.smooth).finalize
  · rw [Builder.complete_of_not_deferred hmode]
    exact hbuilt.finalize

/-- **What is true of new polygons and stays true is true of all polygons.** -/
theorem forall_polygons {P : Polygon → Prop} (hP : Polygon.Stable P)
    (hnew : ∀ p : Polygon, p.mesh = .pending → p.bindings = [] → P p) {m : Model}
    (h : m.Reachable) : ∀ p ∈ m.polygons, P p := by
  induction h with
  | empty shared => exact fun _ hp => absurd hp List.not_mem_nil
  | built hb =>
    intro p hp
    rw [polygons_eq] at hp
    obtain ⟨g, hg, hp⟩ := List.mem_flatMap.1 hp
    have hgiven := (Config.gives_of_applyAll hb).model.givesGeometry (List.mem_append_left _ hg)
    obtain ⟨pending, -, hmesh, hbindings, rfl⟩ := hgiven.2 p hp
    exact hP.meshed _ (hnew pending hmesh hbindings)
  | @call m c h ih =>
    -- a call changes the registry or what is pending
    have hpolygons : (m.call c).polygons = m.polygons := by
      cases c with
      | register id definition => rfl
      | record r =>
        rw [Model.call]
        rcases m.recordReference_cases r with hr | hr <;> rw [hr]
        rfl
    rw [hpolygons]
    exact ih
  | @addObject m m' o h h' ho ih ih' =>
    intro p hp
    rw [polygons, Model.addObject, Tree.forestLabels_append, List.flatMap_append] at hp
    rcases List.mem_append.1 hp with hp | hp
    · exact ih p hp
    · obtain ⟨f, hf, hp⟩ := List.mem_flatMap.1 hp
      exact ih' p (List.mem_flatMap.2 ⟨f, Tree.forestLabels_subset ho hf, hp⟩)
  | finalize h ih => exact hP.finalize ih
  | tessellateAll smooth h ih => exact hP.tessellateAll ih smooth

end Model.Reachable

end CityScene

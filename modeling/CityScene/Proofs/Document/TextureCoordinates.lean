import CityScene.Proofs.Document.Reachable
import CityScene.Proofs.Tessellation.Basic
import Mathlib.Algebra.GroupWithZero.Nat

/-!
# Texture coordinates and mesh vertices

The points of all rings of a polygon have an order, the exterior first (`Polygon.vertexIndex`).
Tessellation takes the vertices of a mesh in this order, and bound texture coordinates are handed
out in it.  Both are lists of one list per ring put together, and the lists have the same lengths,
so each vertex gets the coordinate of its own point (`textureCoordinates_of_reachable`), whether the
polygon was tessellated before it was painted or after.
-/

namespace CityScene

/-! ### Positions in a list of lists -/

section Flatten

variable {α β : Type}

/-- Where member `i` of list `r` comes when the lists are put together. -/
def positionIn (lists : List (List α)) (r i : Nat) : Nat :=
  ((lists.take r).map List.length).sum + i

theorem positionIn_cons_succ (l : List α) (lists : List (List α)) (r i : Nat) :
    positionIn (l :: lists) (r + 1) i = l.length + positionIn lists r i := by
  rw [positionIn, positionIn, List.take_succ_cons, List.map_cons, List.sum_cons, Nat.add_assoc]

/-- Positions depend on lengths only. -/
theorem positionIn_congr {s : List (List α)} {t : List (List β)}
    (h : s.map List.length = t.map List.length) (r i : Nat) :
    positionIn s r i = positionIn t r i := by
  rw [positionIn, positionIn, List.map_take, List.map_take, h]

theorem getElem?_flatten_positionIn {lists : List (List α)} {r i : Nat} {l : List α}
    (hr : lists[r]? = some l) (hi : i < l.length) :
    lists.flatten[positionIn lists r i]? = l[i]? := by
  induction lists generalizing r with
  | nil => cases hr
  | cons first lists ih =>
    rw [List.flatten_cons]
    cases r with
    | zero =>
      cases hr
      rw [positionIn, List.take_zero, List.map_nil, List.sum_nil, Nat.zero_add,
        List.getElem?_append_left hi]
    | succ r =>
      rw [positionIn_cons_succ, List.getElem?_append_right (Nat.le_add_right _ _),
        Nat.add_sub_cancel_left]
      exact ih hr

theorem exists_positionIn_eq {lists : List (List α)} {k : Nat} (hk : k < lists.flatten.length) :
    ∃ r l i, lists[r]? = some l ∧ i < l.length ∧ positionIn lists r i = k := by
  induction lists generalizing k with
  | nil => cases hk
  | cons first lists ih =>
    rw [List.flatten_cons, List.length_append] at hk
    by_cases hfirst : k < first.length
    · refine ⟨0, first, k, rfl, hfirst, ?_⟩
      rw [positionIn, List.take_zero, List.map_nil, List.sum_nil, Nat.zero_add]
    · obtain ⟨r, l, i, hr, hi, hposition⟩ := ih (k := k - first.length) (by omega)
      refine ⟨r + 1, l, i, hr, hi, ?_⟩
      rw [positionIn_cons_succ, hposition]
      omega

end Flatten

namespace Polygon

/-- Where point `i` of ring `r` comes among the points of all rings. -/
def vertexIndex (p : Polygon) (r i : Nat) : Nat :=
  positionIn (p.rings.map (·.points)) r i

/-! ### Meshes -/

/-- The vertices of a mesh are the points of the rings. -/
def MeshFollowsRings (p : Polygon) : Prop :=
  ∀ mesh, p.mesh = .ready mesh → mesh.vertices = (p.rings.map (·.points)).flatten

theorem stable_meshFollowsRings : Stable MeshFollowsRings where
  tessellate p smooth h := by
    rw [tessellate]
    split
    · intro mesh hready
      dsimp only at hready
      rw [tessellation] at hready
      split at hready
      · next hmesh =>
        cases hready
        exact Tessellation.vertices_of_tessellateWith hmesh
      · cases hready
    · exact h
  paint p a h := by cases a <;> exact h

theorem meshFollowsRings_of_reachable {m : Model} (hm : m.Reachable) {p : Polygon}
    (hp : p ∈ m.polygons) : p.MeshFollowsRings :=
  hm.forall_polygons stable_meshFollowsRings
    (fun q hq _ mesh hready => by rw [hq] at hready; cases hready) p hp

/-! ### Coordinates -/

/-- Coordinates are handed out if a texture is bound and every ring has as many as points. -/
theorem of_textureCoordinates? {p : Polygon} {theme : String} {list : List (Vec2 Float)}
    (h : p.textureCoordinates? theme = some list) :
    ∃ b, p.binding? theme = some b ∧ b.texture.isSome = true ∧
      b.coordinates.map (·.length) = p.rings.map (·.length) ∧ b.coordinates.flatten = list := by
  obtain ⟨b, hb, h⟩ := Option.bind_eq_some_iff.1 h
  obtain ⟨texture, htexture, h⟩ := Option.bind_eq_some_iff.1 h
  obtain ⟨hlengths, hlist⟩ := Option.ite_some_none_eq_some.1 h
  exact ⟨b, hb, by rw [htexture, Option.isSome_some], hlengths, hlist⟩

/-- **Every vertex has the coordinate of its own point.**  If a polygon of a model hands out texture
coordinates for a theme, there is one for every point of every ring, namely the one that the theme
binds to that point.  If the polygon has a mesh, there is one for every vertex, and the vertex and
the coordinate at the same place are of the same point. -/
theorem textureCoordinates_of_reachable {m : Model} (hm : m.Reachable) {p : Polygon}
    (hp : p ∈ m.polygons) {theme : String} {list : List (Vec2 Float)}
    (h : p.textureCoordinates? theme = some list) :
    ∃ b, p.binding? theme = some b ∧ b.texture.isSome = true ∧
      b.coordinates.map (·.length) = p.rings.map (·.length) ∧
      list.length = (p.rings.map (·.length)).sum ∧
      (∀ (r i : Nat) (bound : List (Vec2 Float)), b.coordinates[r]? = some bound →
        i < bound.length → list[p.vertexIndex r i]? = bound[i]?) ∧
      ∀ mesh, p.mesh = .ready mesh →
        list.length = mesh.vertices.length ∧
        ∀ k < list.length, ∃ (r i : Nat) (ring : LinearRing) (bound : List (Vec2 Float)),
          p.rings[r]? = some ring ∧ b.coordinates[r]? = some bound ∧ i < ring.length ∧
          k = p.vertexIndex r i ∧ mesh.vertices[k]? = ring.points[i]? ∧ list[k]? = bound[i]? := by
  obtain ⟨b, hb, htexture, hlengths, rfl⟩ := of_textureCoordinates? h
  have hpoints : b.coordinates.map List.length =
      (p.rings.map (·.points)).map List.length := by
    rw [List.map_map]
    exact hlengths
  have hlist : b.coordinates.flatten.length = (p.rings.map (·.length)).sum := by
    rw [List.length_flatten, hlengths]
  have hcoordinate (r i : Nat) (bound : List (Vec2 Float)) (hbound : b.coordinates[r]? = some bound)
      (hi : i < bound.length) : b.coordinates.flatten[p.vertexIndex r i]? = bound[i]? := by
    rw [vertexIndex, ← positionIn_congr hpoints]
    exact getElem?_flatten_positionIn hbound hi
  refine ⟨b, hb, htexture, hlengths, hlist, hcoordinate, fun mesh hmesh => ?_⟩
  have hvertices := meshFollowsRings_of_reachable hm hp mesh hmesh
  have hcount : b.coordinates.flatten.length = mesh.vertices.length := by
    rw [hvertices, List.length_flatten, List.length_flatten, hpoints]
  refine ⟨hcount, fun k hk => ?_⟩
  obtain ⟨r, bound, i, hbound, hi, rfl⟩ := exists_positionIn_eq hk
  -- the ring in the place of the list has as many points as the list has coordinates
  obtain ⟨ring, hring, hlength⟩ : ∃ ring, p.rings[r]? = some ring ∧ ring.length = bound.length := by
    have hr : (p.rings.map (·.length))[r]? = some bound.length := by
      rw [← hlengths, List.getElem?_map, hbound, Option.map_some]
    rw [List.getElem?_map] at hr
    exact Option.map_eq_some_iff.1 hr
  have hposition : positionIn b.coordinates r i = p.vertexIndex r i := positionIn_congr hpoints r i
  have hpoint : i < ring.length := hlength ▸ hi
  refine ⟨r, i, ring, bound, hring, hbound, hpoint, hposition, ?_, ?_⟩
  · rw [hvertices, hposition]
    refine getElem?_flatten_positionIn ?_ hpoint
    rw [List.getElem?_map, hring, Option.map_some]
  · rw [hposition]
    exact hcoordinate r i bound hbound hi

end Polygon

namespace Document

/-- A triangle with a triangular hole, and a texture that gives the coordinates of the hole first.
-/
def texturedTriangle : List Event :=
  let element (name : String) (attributes : Markup.Attributes) (content : List Event) :
      List Event :=
    [.opened name attributes] ++ content ++ [.closed name]
  let ring (role id positions : String) : List Event :=
    element role [] (element "gml:LinearRing" [("gml:id", id)]
      (element "gml:posList" [] [.text positions]))
  let coordinates (ring text : String) : List Event :=
    element "app:textureCoordinates" [("ring", ring)] [.text text]
  element "core:CityModel" []
    (element "bldg:Building" [] (element "bldg:lod1MultiSurface" []
        (element "gml:Polygon" [("gml:id", "P")]
          (ring "gml:exterior" "R" "0 0 0 9 0 0 0 9 0 0 0 0" ++
            ring "gml:interior" "H" "1 1 0 1 2 0 2 1 0 1 1 0"))) ++
      element "app:Appearance" [] (element "app:theme" [] [.text "summer"] ++
        element "app:ParameterizedTexture" [] (element "app:target" [("uri", "#P")]
          (coordinates "#H" "5 5 5 6 6 5" ++ coordinates "#R" "0 0 1 0 0 1 0 0"))))

/-- What the triangle hands out as it is read. -/
def cornersOfTriangle : List (Vec2 Float) :=
  [⟨0, 0⟩, ⟨1, 0⟩, ⟨0, 1⟩, ⟨5, 5⟩, ⟨5, 6⟩, ⟨6, 5⟩]

theorem textureCoordinates_texturedTriangle :
    ∃ outcome, readEvents {} texturedTriangle = .ok outcome ∧
      ∃ p ∈ outcome.model.polygons, p.textureCoordinates? "summer" = some cornersOfTriangle ∧
        ∃ mesh, p.mesh = .ready mesh ∧ cornersOfTriangle.length = mesh.vertices.length := by
  have hpolygons : (readEvents {} texturedTriangle).toOption.map
      (·.model.polygons.map fun p => (p.textureCoordinates? "summer", p.mesh?.isSome)) =
        some [(some cornersOfTriangle, true)] := by decide +kernel
  obtain ⟨outcome, h⟩ := exists_readEvents_of_gridless {}
    (nestAll_eq_nil_iff.1 (by decide) : WellNested texturedTriangle) (by decide)
  rw [h] at hpolygons
  obtain ⟨p, hp, htriangle⟩ := List.map_eq_singleton_iff.1 (Option.some.inj hpolygons)
  obtain ⟨hlist, hready⟩ := Prod.mk.inj htriangle
  have hmem : p ∈ outcome.model.polygons := by rw [hp]; exact List.mem_singleton_self p
  obtain ⟨mesh, hmesh⟩ : ∃ mesh, p.mesh = .ready mesh := by
    cases hstate : p.mesh with
    | ready mesh => exact ⟨mesh, rfl⟩
    | _ => rw [Polygon.mesh?, hstate] at hready; cases hready
  obtain ⟨b, -, -, -, -, -, hvertices⟩ :=
    Polygon.textureCoordinates_of_reachable (.of_readEvents h) hmem hlist
  exact ⟨outcome, h, p, hmem, hlist, mesh, hmesh, (hvertices mesh hmesh).1⟩

end Document

end CityScene

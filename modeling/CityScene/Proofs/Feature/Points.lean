import CityScene.Proofs.Coverage.Cells
import CityScene.Proofs.Model.Completion
import CityScene.Proofs.Space.Hull
import Mathlib.Data.List.Basic

/-!
# What an envelope is around

A feature carries the exterior points of its polygons, the reference points of its implicit
geometries with the points of their inline templates where these are placed, and the corners of its
grid (`Feature.Carries`).  Where a template point is placed and where a corner lies is said here by
coordinates, apart from how they are computed; that an envelope is grown by these points is
`mem_worldPoints` and `mem_corners`.  So growing an envelope by all that (`Feature.ownEnvelope`) makes
a hull of some points the hull of those and of the points carried (`Feature.isHullOf_ownEnvelope`).

An object is `Tight` if every feature in it has as its envelope the hull of what is carried there
and below.  Tight objects stay tight when their polygons are tessellated or painted.
-/

namespace CityScene

open Envelope

/-! ### Hulls of points with a property -/

/-- The least box around the finite points of which something is true. -/
def Envelope.IsHullOf (e : Envelope Float) (P : Vec3 Float → Prop) : Prop :=
  ∃ points, (∀ p, p ∈ points ↔ P p) ∧ IsHull e points

namespace Envelope.IsHullOf

variable {e f : Envelope Float} {P Q : Vec3 Float → Prop}

theorem of_list {points : List (Vec3 Float)} (h : IsHull e points) : IsHullOf e (· ∈ points) :=
  ⟨points, fun _ => Iff.rfl, h⟩

theorem congr (h : IsHullOf e P) (hPQ : ∀ p, P p ↔ Q p) : IsHullOf e Q := by
  obtain ⟨points, hpoints, h⟩ := h
  exact ⟨points, fun p => (hpoints p).trans (hPQ p), h⟩

theorem union (h : IsHullOf e P) (h' : IsHullOf f Q) :
    IsHullOf (e.union f) fun p => P p ∨ Q p := by
  obtain ⟨points, hpoints, h⟩ := h
  obtain ⟨rest, hrest, h'⟩ := h'
  exact ⟨points ++ rest, fun p => by rw [List.mem_append, hpoints, hrest], h.union h'⟩

theorem containsEnvelope (h : IsHullOf e P) (h' : IsHullOf f Q) (hQP : ∀ p, Q p → P p) :
    e.containsEnvelope f = true := by
  obtain ⟨points, hpoints, h⟩ := h
  obtain ⟨rest, hrest, h'⟩ := h'
  exact h.containsEnvelope h' fun p hp => (hpoints p).2 (hQP p ((hrest p).1 hp))

/-- The hull of nothing is the empty envelope. -/
theorem eq_empty (h : IsHullOf e P) (hP : ∀ p, ¬ P p) : e = .empty := by
  obtain ⟨points, hpoints, h⟩ := h
  have hleast := h.least .empty fun p hp => absurd ((hpoints p).1 hp) (hP p)
  cases e with
  | empty => rfl
  | box lower upper => simp at hleast

/-- An envelope is invalid exactly if nothing finite is there. -/
theorem isValid_eq_false_iff (h : IsHullOf e P) :
    e.isValid = false ↔ ∀ p, P p → p.isFinite = false := by
  obtain ⟨points, hpoints, h⟩ := h
  rw [← Bool.not_eq_true, h.isValid_iff, not_exists]
  exact forall_congr' fun p => by rw [hpoints, not_and, Bool.not_eq_true]

theorem lower_le_upper {lower upper : Vec3 Float} (h : IsHullOf (.box lower upper) P) :
    lower ≤ upper := by
  obtain ⟨points, -, h⟩ := h
  exact h.lower_le_upper

end Envelope.IsHullOf

theorem isHullOf_empty : IsHullOf .empty fun _ => False :=
  ⟨[], fun _ => iff_of_false List.not_mem_nil id, isHull_nil⟩

/-- Uniting with one hull after the other gives the hull of all points. -/
theorem isHullOf_foldl_union {α : Type} {envelope : α → Envelope Float}
    {P : Vec3 Float → Prop} {Q : α → Vec3 Float → Prop} {e : Envelope Float} (h : IsHullOf e P)
    (items : List α) (hitems : ∀ a ∈ items, IsHullOf (envelope a) (Q a)) :
    IsHullOf (items.foldl (fun e a => e.union (envelope a)) e)
      fun p => P p ∨ ∃ a ∈ items, Q a p := by
  induction items generalizing e P with
  | nil => exact h.congr fun p => by simp
  | cons a rest ih =>
    rw [List.forall_mem_cons] at hitems
    exact (ih (h.union hitems.1) hitems.2).congr fun p => by simp [or_assoc]

/-! ### The points of the parts -/

namespace Geometry

/-- A point of an exterior ring. -/
def HasExteriorPoint (g : Geometry) (p : Vec3 Float) : Prop :=
  ∃ polygon ∈ g.polygons, p ∈ polygon.exterior.points

theorem isHullOf_envelope (g : Geometry) : IsHullOf g.envelope g.HasExteriorPoint :=
  (isHullOf_foldl_union isHullOf_empty g.polygons fun polygon _ =>
    .of_list (isHull_ofPoints polygon.exterior.points)).congr fun _ => iff_of_eq (false_or _)

theorem hasExteriorPoint_mapPolygons {change : Polygon → Polygon} (h : KeepsRings change)
    (g : Geometry) (p : Vec3 Float) :
    (g.mapPolygons change).HasExteriorPoint p ↔ g.HasExteriorPoint p := by
  simp only [HasExteriorPoint, mapPolygons, List.mem_map, exists_exists_and_eq_and, h.exterior]

end Geometry

/-- The homogeneous coordinates that the rows of a matrix give for a point. -/
structure Matrix4.IsProduct (m : Matrix4) (p : Vec3 Float) (q : Fin 4 → Float) : Prop where
  row (i : Fin 4) : q i = m.entry i 0 * p.x + m.entry i 1 * p.y + m.entry i 2 * p.z + m.entry i 3

theorem Matrix4.exists_isProduct (m : Matrix4) (p : Vec3 Float) : ∃ q, m.IsProduct p q :=
  ⟨_, ⟨fun _ => rfl⟩⟩

namespace ImplicitGeometry

/-- A homogeneous coordinate is divided by the last one, unless that is zero. -/
def divided (coordinate last : Float) : Float :=
  if last == 0 then coordinate else coordinate / last

/-- The reference point, and every point of every ring of an inline template where it is placed. -/
inductive HasPoint (g : ImplicitGeometry) : Vec3 Float → Prop
  | reference : HasPoint g g.referencePoint
  | placed {template : Geometry} {polygon : Polygon} {ring : LinearRing} {p : Vec3 Float}
      {q : Fin 4 → Float} (htemplate : g.template = .inline template)
      (hpolygon : polygon ∈ template.polygons)
      (hring : ring = polygon.exterior ∨ ring ∈ polygon.interiors) (hp : p ∈ ring.points)
      (hq : g.transformation.IsProduct p q) :
      HasPoint g ⟨divided (q 0) (q 3) + g.referencePoint.x,
        divided (q 1) (q 3) + g.referencePoint.y, divided (q 2) (q 3) + g.referencePoint.z⟩

theorem place_eq {g : ImplicitGeometry} {p : Vec3 Float} {q : Fin 4 → Float}
    (hq : g.transformation.IsProduct p q) :
    g.place p = ⟨divided (q 0) (q 3) + g.referencePoint.x,
      divided (q 1) (q 3) + g.referencePoint.y, divided (q 2) (q 3) + g.referencePoint.z⟩ := by
  have hplace : g.place p = (if q 3 != 0 then Vec3.shrink ⟨q 0, q 1, q 2⟩ (q 3)
      else ⟨q 0, q 1, q 2⟩) + g.referencePoint := by
    rw [hq.row, hq.row, hq.row, hq.row]
    rfl
  rw [hplace]
  unfold divided
  cases hlast : q 3 == 0 with
  | true => rw [bne, hlast]; rfl
  | false => rw [bne, hlast]; rfl

theorem mem_worldPoints (g : ImplicitGeometry) (p : Vec3 Float) :
    p ∈ g.worldPoints ↔ g.HasPoint p := by
  rw [worldPoints]
  constructor
  · intro h
    split at h
    · next template htemplate =>
      rcases List.mem_cons.1 h with rfl | h
      · exact .reference
      · obtain ⟨q, hq, rfl⟩ := List.mem_map.1 h
        obtain ⟨polygon, hpolygon, hq⟩ := List.mem_flatMap.1 hq
        obtain ⟨ring, hring, hq⟩ := List.mem_flatMap.1 hq
        obtain ⟨_, hproduct⟩ := g.transformation.exists_isProduct q
        rw [place_eq hproduct]
        exact .placed htemplate hpolygon (List.mem_cons.1 hring) hq hproduct
    · rw [List.mem_singleton.1 h]
      exact .reference
  · rintro (_ | ⟨htemplate, hpolygon, hring, hp, hq⟩)
    · split <;> exact List.mem_cons_self
    · rw [htemplate, ← place_eq hq]
      refine List.mem_cons_of_mem _ (List.mem_map_of_mem ?_)
      exact List.mem_flatMap.2 ⟨_, hpolygon, List.mem_flatMap.2 ⟨_, List.mem_cons.2 hring, hp⟩⟩

theorem isHullOf_envelope (g : ImplicitGeometry) : IsHullOf g.envelope g.HasPoint :=
  (IsHullOf.of_list (isHull_ofPoints g.worldPoints)).congr g.mem_worldPoints

end ImplicitGeometry

namespace GridCoverage

/-- The sample of a cell, if it is in the grid and has one. -/
def sample? (g : GridCoverage) (row column : Nat) : Option Float :=
  match g.samples with
  | .inline values =>
    if row < g.rows.toNat ∧ column < g.columns.toNat then values[row * g.columns.toNat + column]?
    else none
  | .external _ => none

/-- The corners lie in the first or the last row and column.  A corner is where the offsets lead from
the origin, lifted to its sample if it has one. -/
inductive HasCorner (g : GridCoverage) : Vec3 Float → Prop
  | corner {row column : Nat} (hrow : row = 0 ∨ row + 1 = g.rows.toNat)
      (hcolumn : column = 0 ∨ column + 1 = g.columns.toNat) :
      HasCorner g
        ⟨g.origin.x + g.columnOffset.x * Float.ofNat column + g.rowOffset.x * Float.ofNat row,
          g.origin.y + g.columnOffset.y * Float.ofNat column + g.rowOffset.y * Float.ofNat row,
          (g.sample? row column).getD
            (g.origin.z + g.columnOffset.z * Float.ofNat column + g.rowOffset.z * Float.ofNat row)⟩

theorem sample?_eq_some_iff {g : GridCoverage} {row column : UInt64} {value : Float} :
    g.sample? row.toNat column.toNat = some value ↔ g.HasCell row column ∧
      ∃ values, g.samples = .inline values ∧ values[g.cellNumber row column]? = some value := by
  rw [sample?, hasCell_iff, cellNumber]
  cases g.samples with
  | external file =>
    refine iff_of_false (Option.some_ne_none value).symm ?_
    rintro ⟨-, values, hvalues, -⟩
    cases hvalues
  | inline values => simp [Option.ite_none_right_eq_some]

/-- A lookup that does not overflow finds the sample if there is one. -/
theorem toOption_of_sampleAt {g : GridCoverage} {row column : UInt64}
    {result : Except GridFault Float} (h : g.sampleAt row column = .ok result) :
    result.toOption = g.sample? row.toNat column.toNat := by
  have hfits := exists_sampleAt_iff.1 ⟨result, h⟩
  have hvalue : ∀ value, result = .ok value ↔ g.sample? row.toNat column.toNat = some value := by
    intro value
    have hok : result = .ok value ↔ g.sampleAt row column = .ok (.ok value) := by
      rw [h, Except.ok.injEq]
    rw [sample?_eq_some_iff, hok, sampleAt_eq_ok_iff]
    exact and_congr_right fun hcell =>
      ⟨And.right, fun ⟨values, hvalues⟩ => ⟨hfits hcell values hvalues.1, values, hvalues⟩⟩
  refine Option.ext fun value => Iff.trans ?_ (hvalue value)
  cases result <;> simp [Except.toOption]

theorem eq_of_pointAt {g : GridCoverage} {row column : UInt64} {p : Vec3 Float}
    (h : g.pointAt row column = .ok p) :
    p = ⟨g.origin.x + g.columnOffset.x * Float.ofNat column.toNat +
        g.rowOffset.x * Float.ofNat row.toNat,
      g.origin.y + g.columnOffset.y * Float.ofNat column.toNat +
        g.rowOffset.y * Float.ofNat row.toNat,
      (g.sample? row.toNat column.toNat).getD (g.origin.z +
        g.columnOffset.z * Float.ofNat column.toNat + g.rowOffset.z * Float.ofNat row.toNat)⟩ := by
  obtain ⟨result, hresult, rfl⟩ := exists_of_map_eq_ok h
  rw [← toOption_of_sampleAt hresult]
  cases result <;> rfl

/-- The first and the last position along an axis are machine words. -/
theorem exists_word_of_edge {k : Nat} {n : UInt64} (h : k = 0 ∨ k + 1 = n.toNat) :
    ∃ word : UInt64, word.toNat = k ∧ (word = 0 ∨ word.toNat + 1 = n.toNat) := by
  rcases h with rfl | h
  · exact ⟨0, UInt64.toNat_zero, .inl rfl⟩
  · have hlt : k + 1 < UInt64.size := h ▸ n.toNat_lt
    have hk : (UInt64.ofNat k).toNat = k := UInt64.toNat_ofNat_of_lt' (Nat.lt_of_succ_lt hlt)
    exact ⟨.ofNat k, hk, .inr (by rw [hk, h])⟩

theorem mem_corners {g : GridCoverage} {points : List (Vec3 Float)} (h : g.corners = .ok points)
    (p : Vec3 Float) : p ∈ points ↔ g.HasCorner p := by
  rw [corners_eq] at h
  rw [mem_of_mapM_eq_ok h]
  constructor
  · rintro ⟨cell, hcell, hp⟩
    obtain ⟨hrow, hcolumn⟩ := mem_cornerCells.1 hcell
    rw [eq_of_pointAt hp]
    exact .corner (hrow.imp_left fun hzero => by rw [hzero, UInt64.toNat_zero])
      (hcolumn.imp_left fun hzero => by rw [hzero, UInt64.toNat_zero])
  · rintro ⟨hrow, hcolumn⟩
    obtain ⟨row, rfl, hfirst⟩ := exists_word_of_edge hrow
    obtain ⟨column, rfl, hsecond⟩ := exists_word_of_edge hcolumn
    have hcell : (row, column) ∈ g.cornerCells := mem_cornerCells.2 ⟨hfirst, hsecond⟩
    obtain ⟨q, hq⟩ := exists_mapM_eq_ok_iff.1 ⟨points, h⟩ _ hcell
    exact ⟨_, hcell, eq_of_pointAt hq ▸ hq⟩

theorem isHullOf_envelope {g : GridCoverage} {e : Envelope Float} (h : g.envelope = .ok e) :
    IsHullOf e g.HasCorner := by
  obtain ⟨points, hpoints, rfl⟩ := exists_of_map_eq_ok h
  exact (IsHullOf.of_list (isHull_ofPoints points)).congr (mem_corners hpoints)

end GridCoverage

namespace Feature

/-- The points that a feature carries itself. -/
inductive Carries (f : Feature) : Vec3 Float → Prop
  | exterior {g : Geometry} {p : Vec3 Float} (hg : g ∈ f.geometries) (hp : g.HasExteriorPoint p) :
      Carries f p
  | placed {g : ImplicitGeometry} {p : Vec3 Float} (hg : g ∈ f.implicits) (hp : g.HasPoint p) :
      Carries f p
  | corner {g : GridCoverage} {p : Vec3 Float} (hg : f.coverage = some g) (hp : g.HasCorner p) :
      Carries f p

theorem carries_iff (f : Feature) (p : Vec3 Float) : f.Carries p ↔
    (∃ g ∈ f.geometries, g.HasExteriorPoint p) ∨ (∃ g ∈ f.implicits, g.HasPoint p) ∨
      ∃ g, f.coverage = some g ∧ g.HasCorner p := by
  constructor
  · rintro (⟨hg, hp⟩ | ⟨hg, hp⟩ | ⟨hg, hp⟩)
    · exact .inl ⟨_, hg, hp⟩
    · exact .inr (.inl ⟨_, hg, hp⟩)
    · exact .inr (.inr ⟨_, hg, hp⟩)
  · rintro (⟨g, hg, hp⟩ | ⟨g, hg, hp⟩ | ⟨g, hg, hp⟩)
    · exact .exterior hg hp
    · exact .placed hg hp
    · exact .corner hg hp

/-- **Growing a hull by what a feature carries gives a hull.** -/
theorem isHullOf_ownEnvelope {f : Feature} {e : Envelope Float} {P : Vec3 Float → Prop}
    (h : IsHullOf f.envelope P) (hown : f.ownEnvelope = .ok e) :
    IsHullOf e fun p => P p ∨ f.Carries p := by
  have hgeometric := isHullOf_foldl_union h f.geometries fun g _ => g.isHullOf_envelope
  have hplaced := isHullOf_foldl_union hgeometric f.implicits fun g _ => g.isHullOf_envelope
  simp only [carries_iff, ← or_assoc]
  rw [ownEnvelope] at hown
  cases hcoverage : f.coverage with
  | none =>
    rw [hcoverage] at hown
    obtain rfl := Except.ok.inj hown
    exact hplaced.congr fun p => by simp
  | some grid =>
    rw [hcoverage] at hown
    obtain ⟨corners, hcorners, rfl⟩ := exists_of_map_eq_ok hown
    refine (hplaced.union (GridCoverage.isHullOf_envelope hcorners)).congr fun p => or_congr_right ?_
    simp

theorem carries_mapPolygons {change : Polygon → Polygon} (h : KeepsRings change) (f : Feature)
    (p : Vec3 Float) : (f.mapPolygons change).Carries p ↔ f.Carries p := by
  rw [carries_iff, carries_iff]
  refine or_congr_left ?_
  simp only [mapPolygons, List.mem_map, exists_exists_and_eq_and,
    Geometry.hasExteriorPoint_mapPolygons h]

end Feature

/-! ### Objects -/

/-- The points that the features of a forest carry. -/
def Carried (forest : List CityObject) (p : Vec3 Float) : Prop :=
  ∃ f ∈ Tree.forestLabels forest, f.Carries p

theorem carried_append (s t : List CityObject) (p : Vec3 Float) :
    Carried (s ++ t) p ↔ Carried s p ∨ Carried t p := by
  simp only [Carried, Tree.forestLabels_append, List.mem_append, or_and_right, exists_or]

theorem carried_node (f : Feature) (children : List CityObject) (p : Vec3 Float) :
    Carried [.node f children] p ↔ f.Carries p ∨ Carried children p := by
  simp only [Carried, Tree.forestLabels, Tree.labels, List.append_nil, List.mem_cons,
    exists_eq_or_imp]

theorem Carried.mono {s t : List CityObject} (h : Tree.forestLabels s ⊆ Tree.forestLabels t)
    {p : Vec3 Float} (hp : Carried s p) : Carried t p := by
  obtain ⟨f, hf, hp⟩ := hp
  exact ⟨f, h hf, hp⟩

/-- Every envelope in the forest is the hull of the points carried by the feature that has it and by
all features below. -/
def Tight (forest : List CityObject) : Prop :=
  ∀ t ∈ Tree.forestSubtrees forest, IsHullOf t.label.envelope (Carried [t])

theorem isHullOf_nothing : IsHullOf .empty (Carried []) :=
  isHullOf_empty.congr fun _ => iff_of_false id fun ⟨_, hf, _⟩ => absurd hf List.not_mem_nil

theorem tight_nil : Tight [] :=
  fun _ ht => absurd ht List.not_mem_nil

theorem tight_append {s t : List CityObject} (hs : Tight s) (ht : Tight t) : Tight (s ++ t) := by
  intro u hu
  rw [Tree.forestSubtrees_append] at hu
  rcases List.mem_append.1 hu with hu | hu
  · exact hs u hu
  · exact ht u hu

/-- The root of a tight tree. -/
theorem Tight.isHullOf {o : CityObject} (h : Tight [o]) : IsHullOf o.label.envelope (Carried [o]) :=
  h o (List.mem_append_left _ (by cases o; exact List.mem_cons_self))

/-- **A feature over tight children that is grown to its own envelope makes a tight object.** -/
theorem tight_node {f : Feature} {envelope : Envelope Float} {children : List CityObject}
    (henvelope : IsHullOf f.envelope (Carried children)) (hown : f.ownEnvelope = .ok envelope)
    (hchildren : Tight children) : Tight [.node { f with envelope } children] := by
  intro t ht
  rw [Tree.forestSubtrees, Tree.forestSubtrees, List.append_nil, Tree.subtrees] at ht
  rcases List.mem_cons.1 ht with rfl | ht
  · refine (Feature.isHullOf_ownEnvelope henvelope hown).congr fun p => ?_
    rw [carried_node, or_comm, Feature.carries_iff, Feature.carries_iff]
  · exact hchildren t ht

theorem carried_mapPolygons {change : Polygon → Polygon} (h : KeepsRings change)
    (forest : List CityObject) (p : Vec3 Float) :
    Carried (Tree.forestMap (·.mapPolygons change) forest) p ↔ Carried forest p := by
  simp only [Carried, Tree.forestLabels_map, List.mem_map, exists_exists_and_eq_and,
    Feature.carries_mapPolygons h]

theorem tight_mapPolygons {change : Polygon → Polygon} (h : KeepsRings change)
    {forest : List CityObject} (hforest : Tight forest) :
    Tight (Tree.forestMap (·.mapPolygons change) forest) := by
  intro t' ht'
  rw [Tree.forestSubtrees_map] at ht'
  obtain ⟨t, ht, rfl⟩ := List.mem_map.1 ht'
  have hcarried := carried_mapPolygons h [t]
  rw [Tree.forestMap, Tree.forestMap] at hcarried
  rw [Tree.label_map]
  exact (hforest t ht).congr fun p => (hcarried p).symm

/-- The envelope of the model is the hull of everything in it, and so are those of its objects. -/
def Model.IsTight (m : Model) : Prop :=
  IsHullOf m.envelope (Carried m.objects) ∧ Tight m.objects

theorem Model.SameShape.isTight {m m' : Model} (h : m.SameShape m') (hm : m.IsTight) :
    m'.IsTight := by
  obtain ⟨henvelope, -, change, hchange, hobjects⟩ := h
  rw [IsTight, henvelope, hobjects]
  exact ⟨hm.1.congr fun p => (carried_mapPolygons hchange _ p).symm,
    tight_mapPolygons hchange hm.2⟩

/-! ### All envelopes -/

/-- The envelope of a feature, the stated one, and those of all that it carries. -/
def Feature.envelopes (f : Feature) : List (Envelope Float) :=
  f.envelope :: f.declared.toList ++ f.geometries.map (·.envelope) ++
    f.implicits.map (·.envelope) ++ f.coverage.toList.filterMap (·.envelope.toOption)

/-- The envelope of a model, the stated one, and those of all features, in pre-order. -/
def Model.envelopes (m : Model) : List (Envelope Float) :=
  m.envelope :: m.declared.toList ++ (Tree.forestLabels m.objects).flatMap (·.envelopes)

theorem Geometry.envelope_mapPolygons {change : Polygon → Polygon} (h : KeepsRings change)
    (g : Geometry) : (g.mapPolygons change).envelope = g.envelope := by
  rw [envelope, envelope, mapPolygons, List.foldl_map]
  congr 1
  funext e p
  rw [Polygon.envelope, Polygon.envelope, h.exterior]

theorem Feature.envelopes_mapPolygons {change : Polygon → Polygon} (h : KeepsRings change)
    (f : Feature) : (f.mapPolygons change).envelopes = f.envelopes := by
  have hgeometries : (f.mapPolygons change).geometries.map (·.envelope) =
      f.geometries.map (·.envelope) := by
    rw [mapPolygons, List.map_map]
    exact List.map_congr_left fun g _ => g.envelope_mapPolygons h
  rw [envelopes, hgeometries]
  rfl

/-- **Models of the same shape have the same envelopes.** -/
theorem Model.SameShape.envelopes_eq {m m' : Model} (h : m.SameShape m') :
    m'.envelopes = m.envelopes := by
  obtain ⟨henvelope, hdeclared, change, hchange, hobjects⟩ := h
  rw [envelopes, envelopes, henvelope, hdeclared, hobjects, Tree.forestLabels_map, List.flatMap_map]
  congr 1
  exact List.flatMap_congr fun f _ => f.envelopes_mapPolygons hchange

end CityScene

import CityScene.Proofs.Document.Nesting

/-!
# The tree of objects

Objects are attached when their elements are closed, so the tree grows from its leaves on a stack.
All the same its pre-order is the order in which the elements were opened: the finished objects,
followed by what is open from the outermost object to the innermost one, is a listing to which
opening an object adds one entry at the end (`Scaffold.outline_push`), and which attaching an object
leaves as it is (`Scaffold.outline_attach`).
-/

namespace CityScene.Document

/-- An entry of a listing of objects: depth, kind and identifier. -/
abbrev Entry := Nat × Kind × String

/-- The objects of a forest in pre-order, the roots at a depth. -/
def listing (depth : Nat) (forest : List CityObject) : List Entry :=
  (Tree.forestOutline depth forest).map (Prod.map id fun f => (f.kind, f.id))

theorem listing_append (depth : Nat) (s t : List CityObject) :
    listing depth (s ++ t) = listing depth s ++ listing depth t := by
  rw [listing, Tree.forestOutline_append, List.map_append, listing, listing]

theorem listing_node (depth : Nat) (f : Feature) (children : List CityObject) :
    listing depth [.node f children] = (depth, f.kind, f.id) :: listing (depth + 1) children := by
  rw [listing, Tree.forestOutline, Tree.forestOutline, List.append_nil, Tree.outline, List.map_cons,
    listing]
  rfl

/-! ### Listing the open objects -/

/-- The number of open objects. -/
def objectDepth (levels : List Level) : Nat :=
  levels.countP (·.object.isSome)

/-- The open objects with the objects below them, in pre-order. -/
def openListing : List Level → List Entry
  | [] => []
  | l :: outer =>
    openListing outer ++
      match l.object with
      | none => []
      | some core =>
        (objectDepth outer, core.kind, core.id) :: listing (objectDepth outer + 1) core.children

theorem openListing_of_none {l : Level} (h : l.object = none) (outer : List Level) :
    openListing (l :: outer) = openListing outer := by
  rw [openListing, h, List.append_nil]

theorem objectDepth_of_none {l : Level} (h : l.object = none) (outer : List Level) :
    objectDepth (l :: outer) = objectDepth outer := by
  rw [objectDepth, List.countP_cons_of_neg (by rw [h]; nofun), objectDepth]

theorem objectDepth_of_some {l : Level} {core : ObjectCore} (h : l.object = some core)
    (outer : List Level) : objectDepth (l :: outer) = objectDepth outer + 1 := by
  rw [objectDepth, List.countP_cons_of_pos (by rw [h]; rfl), objectDepth]

/-- Where an object is open, an attached object comes last in the listing of the open ones. -/
theorem openListing_attachTo {child : CityObject} {s t : List Level}
    (h : attachTo child s = some t) :
    openListing t = openListing s ++ listing (objectDepth s) [child] := by
  induction s generalizing t with
  | nil => cases h
  | cons l outer ih =>
    rw [attachTo] at h
    split at h
    · next core hobject =>
      obtain rfl := Option.some.inj h
      rw [openListing, openListing, hobject, objectDepth_of_some hobject, List.append_assoc,
        List.cons_append, ← listing_append]
      rfl
    · next hobject =>
      obtain ⟨t, ht, rfl⟩ := Option.map_eq_some_iff.1 h
      rw [openListing_of_none hobject, openListing_of_none hobject, objectDepth_of_none hobject,
        ih ht]

theorem of_attachTo_eq_none {child : CityObject} {s : List Level} (h : attachTo child s = none) :
    openListing s = [] ∧ objectDepth s = 0 := by
  induction s with
  | nil => exact ⟨rfl, rfl⟩
  | cons l outer ih =>
    rw [attachTo] at h
    split at h
    · cases h
    · next hobject =>
      rw [openListing_of_none hobject, objectDepth_of_none hobject]
      exact ih (Option.map_eq_none_iff.1 h)

namespace Scaffold

/-- All objects in pre-order, finished and open. -/
def outline (s : Scaffold) : List Entry :=
  listing 0 s.objects ++ openListing s.levels

/-- For every open element whether it is an object, the innermost first. -/
def path (s : Scaffold) : List Bool :=
  s.levels.map (·.object.isSome)

theorem count_path (s : Scaffold) : s.path.count true = objectDepth s.levels := by
  rw [path, List.count_eq_countP, List.countP_map, objectDepth]
  exact List.countP_congr fun l _ => by simp

theorem outline_push (s : Scaffold) (l : Level) :
    (s.push l).outline = s.outline ++
      match l.object with
      | none => []
      | some core =>
        (objectDepth s.levels, core.kind, core.id) ::
          listing (objectDepth s.levels + 1) core.children := by
  rw [outline, outline, List.append_assoc, push, openListing]

theorem outline_attach (s : Scaffold) (o : CityObject) :
    (s.attach o).outline = s.outline ++ listing (objectDepth s.levels) [o] := by
  rw [attach]
  split
  · next levels h => rw [outline, outline, openListing_attachTo h, List.append_assoc]
  · next h =>
    obtain ⟨hopen, hdepth⟩ := of_attachTo_eq_none h
    rw [outline, outline, hopen, hdepth, List.append_nil, List.append_nil, listing_append]

theorem path_attach (s : Scaffold) (o : CityObject) : (s.attach o).path = s.path := by
  rw [attach]
  split
  · next h => exact map_attachTo (fun l core hobject => by rw [hobject]; rfl) h
  · rfl

/-- Closing an element that is no object leaves the objects as they are. -/
theorem outline_pop {s : Scaffold} {l : Level} {outer : List Level} (h : s.levels = l :: outer)
    (hobject : l.object = none) : s.pop.outline = s.outline := by
  rw [outline, outline, h, openListing_of_none hobject, pop, h, List.tail_cons]

/-- An object that is closed moves from the open objects to the finished ones or to the children of
the object around it, and keeps its place in the listing. -/
theorem outline_attach_pop {s : Scaffold} {l : Level} {outer : List Level} {core : ObjectCore}
    {f : Feature} {envelope : Envelope Float} (h : s.levels = l :: outer)
    (hobject : l.object = some core) (hid : f.id = core.id) (hkind : f.kind = core.kind) :
    (s.pop.attach (finished f envelope core.children)).outline = s.outline := by
  rw [outline_attach, outline, outline, h, openListing, hobject, pop, h, List.tail_cons, finished,
    listing_node, hid, hkind, List.append_assoc]

end Scaffold

namespace Builder

/-- The city object that an event begins, if it begins one.  The `path` tells of every open element
whether it is an object; the depth of the new object is the number of objects around it. -/
def openedObject? (config : Config) (b : Builder) (path : List Bool) : Event → Option Entry
  | .opened name attributes =>
    (b.objectOf? config name attributes).map fun object => (path.count true, object)
  | _ => none

def pathAfter (config : Config) (b : Builder) (path : List Bool) : Event → List Bool
  | .opened name attributes => (b.objectOf? config name attributes).isSome :: path
  | .closed _ => path.tail
  | .text _ | .offset _ => path

/-- The city objects that the events of a run begin, in order. -/
def openedObjects (config : Config) (b : Builder) (path : List Bool) : List Event → List Entry
  | [] => []
  | e :: rest =>
    (b.openedObject? config path e).toList ++
      openedObjects config (b.feed config e).1 (b.pathAfter config path e) rest

/-- **One step adds the object that it opens, and nothing else, to the listing.** -/
theorem ScaffoldStep.outline_eq {config : Config} {b : Builder} {e : Event} {s : Scaffold}
    (hprune : config.prune = false) (h : ScaffoldStep config b e s) :
    s.outline = b.scaffold.outline ++ (b.openedObject? config b.scaffold.path e).toList ∧
      s.path = b.pathAfter config b.scaffold.path e := by
  cases h with
  | offset bytes => exact ⟨(List.append_nil _).symm, rfl⟩
  | text content => exact ⟨(List.append_nil _).symm, rfl⟩
  | opened name attributes =>
    rw [Scaffold.outline_push, openedObject?, pathAfter, Scaffold.count_path]
    cases b.objectOf? config name attributes with
    | none => exact ⟨rfl, rfl⟩
    | some object => exact ⟨rfl, rfl⟩
  | closed hlevels hobject =>
    rw [Scaffold.outline_pop hlevels hobject]
    exact ⟨(List.append_nil _).symm, List.map_tail⟩
  | dropped hlevels hdropped => rw [hprune] at hdropped; cases hdropped
  | attached hlevels hobject hid hkind _ _ =>
    rw [Scaffold.outline_attach_pop hlevels hobject hid hkind, Scaffold.path_attach]
    exact ⟨(List.append_nil _).symm, List.map_tail⟩

/-- A run adds the objects that its events begin to the listing. -/
theorem outline_applyAll {config : Config} (hprune : config.prune = false) {events : List Event}
    {b b' : Builder} (h : b.applyAll config events = .ok b') :
    b'.scaffold.outline =
      b.scaffold.outline ++ b.openedObjects config b.scaffold.path events := by
  induction events generalizing b with
  | nil =>
    obtain rfl := Except.ok.inj h
    exact (List.append_nil _).symm
  | cons e events ih =>
    obtain ⟨m, he, hrest⟩ := applyAll_cons_eq_ok h
    obtain ⟨houtline, hpath⟩ := (step_of_apply he).scaffold.outline_eq hprune
    rw [ih hrest, houtline, hpath, openedObjects, feed_of_ok he, List.append_assoc]

end Builder

/-- Completing a document keeps the listing of its objects. -/
theorem listing_of_sameShape {m m' : Model} (h : m.SameShape m') (depth : Nat) :
    listing depth m'.objects = listing depth m.objects := by
  obtain ⟨-, -, change, -, hobjects⟩ := h
  rw [hobjects, listing, listing]
  exact Tree.forestOutline_map (fun _ => rfl) depth m.objects

theorem map_features (m : Model) :
    m.features.map (fun f => (f.kind, f.id)) = (listing 0 m.objects).map Prod.snd := by
  rw [Model.features, Tree.walk_eq, Tree.map_label_forestSubtrees, ← Tree.map_snd_forestOutline 0,
    listing, List.map_map, List.map_map]
  rfl

/-- **The objects of a document stand in its tree as their elements stand in the document.**  If no
empty objects are left out, the pre-order of the finished objects, with depths, is the order in
which their elements were opened, with the number of objects around each. -/
theorem listing_readEvents {config : Config} {events : List Event} {outcome : Outcome}
    (hprune : config.prune = false) (h : readEvents config events = .ok outcome) :
    (Tree.forestOutline 0 outcome.model.objects).map (fun (depth, f) => (depth, f.kind, f.id)) =
        (Builder.start config).openedObjects config [] events ∧
      outcome.model.features.map (fun f => (f.kind, f.id)) =
        ((Builder.start config).openedObjects config [] events).map Prod.snd := by
  obtain ⟨b, hb, hstack, rfl⟩ := Builder.exists_of_readEvents_eq_ok h
  have hopened : listing 0 (b.complete config).model.objects =
      (Builder.start config).openedObjects config [] events := by
    have hrun := Builder.outline_applyAll hprune hb
    rw [Scaffold.outline, Builder.scaffold, hstack] at hrun
    rw [listing_of_sameShape (b.complete_sameShape config)]
    exact (List.append_nil _).symm.trans hrun
  refine ⟨hopened, ?_⟩
  rw [map_features, hopened]

/-- Two buildings, the first with a part and with a room that is left out with the part in it. -/
def twoBuildings : List Event :=
  [.opened "CityModel" [],
   .opened "bldg:Building" [("gml:id", "B")],
   .opened "bldg:consistsOfBuildingPart" [],
   .opened "bldg:BuildingPart" [], .closed "bldg:BuildingPart",
   .closed "bldg:consistsOfBuildingPart",
   .opened "bldg:Room" [],
   .opened "bldg:BuildingPart" [], .closed "bldg:BuildingPart",
   .closed "bldg:Room",
   .closed "bldg:Building",
   .opened "bldg:Building" [("gml:id", "C")], .closed "bldg:Building",
   .closed "CityModel"]

theorem listing_twoBuildings :
    let config : Config := { kinds := some [.building, .buildingPart] }
    ∃ outcome, readEvents config twoBuildings = .ok outcome ∧
      (Tree.forestOutline 0 outcome.model.objects).map (fun (depth, f) => (depth, f.kind, f.id)) =
        [(0, .building, "B"), (1, .buildingPart, "BuildingPart_1"), (0, .building, "C")] := by
  intro config
  obtain ⟨outcome, h⟩ := exists_readEvents_of_gridless config
    (nestAll_eq_nil_iff.1 (by decide) : WellNested twoBuildings) (by decide)
  refine ⟨outcome, h, (listing_readEvents rfl h).1.trans ?_⟩
  decide +kernel

end CityScene.Document

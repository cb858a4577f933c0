import CityScene.Proofs.Document.Definitions
import CityScene.Proofs.Model.Stable

/-!
# Dimensions of positions

A list of positions that states no dimension has that of the reference system in effect, which is
the one that the innermost tag around it names (`Tracks.srs?_eq`).  But the dimension is looked up
in the registry, and there it is that of the first tag in the document to name the system, whatever
later tags state (`Informed`).  So the tag around the list is heard only if it is the first
(`positions_firstNamed`); otherwise its dimension is passed over (`positions_regrouped`).
-/

namespace CityScene.Document

/-! ### Tags -/

/-- The attributes of the open tags after an event, innermost first. -/
def tagsAfter (tags : List Markup.Attributes) : Event → List Markup.Attributes
  | .opened _ attributes => attributes :: tags
  | .closed _ => tags.tail
  | .text _ | .offset _ => tags

/-- The attributes of the tags that are open after some events. -/
def openTags (events : List Event) : List Markup.Attributes :=
  events.foldl tagsAfter []

/-- The system that the innermost of some tags names, of those that name one. -/
def systemAround? (tags : List Markup.Attributes) : Option String :=
  tags.findSome? (·.value? "srsName")

/-- The system that an event names. -/
def Builder.systemOf? (b : Builder) : Event → Option ReferenceSystem
  | .opened _ attributes => b.namedSystem? attributes
  | .closed _ | .text _ | .offset _ => none

/-- The systems that the tags of a run name, in order. -/
def Builder.namedSystems (config : Config) (b : Builder) : List Event → List ReferenceSystem
  | [] => []
  | e :: rest => (b.systemOf? e).toList ++ namedSystems config (b.feed config e).1 rest

theorem Stack.Changed.srs?_eq {R : Frame → Frame → Prop} {s s' : Stack} (h : s.Changed R s') :
    s'.srs? = s.srs? := by
  cases h with
  | nil => rfl
  | cons he _ => exact he.2.1

theorem Stack.Changed.isSkipped_eq {s s' : Stack} (h : s.Changed Frame.SameRole s') :
    s'.head?.any (·.frame.isSkipped) = s.head?.any (·.frame.isSkipped) := by
  cases h with
  | nil => rfl
  | cons he _ => exact congrArg Prod.fst he.2.2

variable {systems : List ReferenceSystem} {tags : List Markup.Attributes}

/-- The open elements have the systems of their tags.  Those that are not left out are in none that
is, and what their tags name is among the given systems. -/
inductive Tracks (systems : List ReferenceSystem) : List Markup.Attributes → Stack → Prop
  | nil : Tracks systems [] []
  | cons {attributes : Markup.Attributes} {tags : List Markup.Attributes} {e : OpenElement}
      {outer : Stack} (houter : Tracks systems tags outer)
      (hread : e.frame.isSkipped = false → outer.head?.any (·.frame.isSkipped) = false)
      (hsrs : e.frame.isSkipped = false →
        e.srs = (attributes.value? "srsName" <|> Stack.srs? outer))
      (hnamed : e.frame.isSkipped = false →
        ∀ name ∈ attributes.value? "srsName", ∃ system ∈ systems, system.name = name) :
      Tracks systems (attributes :: tags) (e :: outer)

namespace Tracks

variable {s s' : Stack}

theorem mono {systems' : List ReferenceSystem} (h : Tracks systems tags s)
    (hsub : systems ⊆ systems') : Tracks systems' tags s := by
  induction h with
  | nil => exact .nil
  | cons _ hread hsrs hnamed ih =>
    refine .cons ih hread hsrs fun hskip name hname => ?_
    obtain ⟨system, hsystem, heq⟩ := hnamed hskip name hname
    exact ⟨system, hsub hsystem, heq⟩

/-- Only systems and roles matter. -/
theorem changed (h : Tracks systems tags s) (hs : s.Changed Frame.SameRole s') :
    Tracks systems tags s' := by
  induction h generalizing s' with
  | nil =>
    cases hs
    exact .nil
  | cons _ hread hsrs hnamed ih =>
    cases hs with
    | @cons _ e' _ outer' he houter =>
      obtain ⟨-, hsystem, hrole⟩ := he
      have hskip : e'.frame.isSkipped = _ := congrArg Prod.fst hrole
      refine .cons (ih houter) ?_ ?_ ?_
      · rw [hskip, Stack.Changed.isSkipped_eq houter]
        exact hread
      · rw [hskip, hsystem, Stack.Changed.srs?_eq houter]
        exact hsrs
      · rw [hskip]
        exact hnamed

/-- **The system in effect is the one that the innermost tag names.** -/
theorem srs?_eq (h : Tracks systems tags s) (hs : s.head?.any (·.frame.isSkipped) = false) :
    s.srs? = systemAround? tags := by
  induction h with
  | nil => rfl
  | @cons attributes tags e outer _ hread hsrs _ ih =>
    have hskip : e.frame.isSkipped = false := hs
    show e.srs = _
    rw [hsrs hskip, ih (hread hskip), systemAround?, systemAround?, List.findSome?_cons]
    cases attributes.value? "srsName" <;> rfl

/-- What is in effect has been named. -/
theorem exists_named (h : Tracks systems tags s) (hs : s.head?.any (·.frame.isSkipped) = false)
    {name : String} (hname : systemAround? tags = some name) :
    ∃ system ∈ systems, system.name = name := by
  induction h with
  | nil => cases hname
  | @cons attributes tags e outer _ hread _ hnamed ih =>
    have hskip : e.frame.isSkipped = false := hs
    rw [systemAround?, List.findSome?_cons] at hname
    cases hown : attributes.value? "srsName" with
    | some own =>
      rw [hown] at hname
      exact hnamed hskip name (hown.trans hname)
    | none =>
      rw [hown] at hname
      exact ih (hread hskip) hname

end Tracks

/-! ### The registry -/

/-- What a registry has of the systems that were named: the first that was named of each name, if
nothing else has that name, and something under every name. -/
structure Knows (systems : List ReferenceSystem) (registry : Registry) : Prop where
  first : ∀ {name system}, registry.get? name = some (.referenceSystem system) →
    systems.find? (·.name = name) = some system
  taken : ∀ system ∈ systems, registry.contains system.name = true

namespace Knows

variable {b : Builder}

/-- A system that is named again is passed over. -/
theorem mention (h : Knows systems b.model.registry) (system : ReferenceSystem) :
    Knows (systems ++ [system]) (b.define (b.mention system)).model.registry := by
  have hkeep {name : String} {s : ReferenceSystem}
      (hs : b.model.registry.get? name = some (.referenceSystem s)) :
      (systems ++ [system]).find? (·.name = name) = some s := by
    rw [List.find?_append, h.first hs, Option.some_or]
  rw [Builder.mention]
  split
  · next htaken =>
    refine ⟨hkeep, fun s hs => ?_⟩
    rcases List.mem_append.1 hs with hs | hs
    · exact h.taken s hs
    · rw [List.mem_singleton.1 hs]
      exact htaken
  · next hfree =>
    dsimp only [Builder.define, Model.register]
    refine ⟨fun {name s} hs => ?_, fun s hs => ?_⟩
    · rw [Table.get?_insert] at hs
      split at hs
      · next heq =>
        subst heq
        cases hs
        -- nothing of that name has been named before, for it would be taken
        have hnone : systems.find? (·.name = system.name) = none :=
          List.find?_eq_none.2 fun s hs heq => hfree (of_decide_eq_true heq ▸ h.taken s hs)
        rw [List.find?_append, hnone, Option.none_or, List.find?_singleton, if_pos]
        exact decide_eq_true rfl
      · exact hkeep hs
    · rcases List.mem_append.1 hs with hs | hs
      · exact Table.contains_insert (h.taken s hs) _ _
      · rw [List.mem_singleton.1 hs]
        exact Table.contains_insert_self _ _ _

theorem tag (h : Knows systems b.model.registry) (attributes : Markup.Attributes) :
    Knows (systems ++ (b.namedSystem? attributes).toList)
      (b.define (b.mention? attributes)).model.registry := by
  rw [Builder.mention?]
  cases b.namedSystem? attributes with
  | none =>
    rw [Option.toList_none, List.append_nil]
    exact h
  | some system => exact h.mention system

/-- What the end of an element registers is no system. -/
theorem ended (h : Knows systems b.model.registry) (config : Config) (f : Frame) :
    Knows systems (b.define (f.definition? config)).model.registry := by
  cases hdefinition : f.definition? config with
  | none => exact h
  | some entry =>
    obtain ⟨key, d⟩ := entry
    dsimp only [Builder.define, Model.register]
    refine ⟨fun {name s} hs => ?_, fun s hs => Table.contains_insert (h.taken s hs) _ _⟩
    rw [Table.get?_insert] at hs
    split at hs
    · cases hs
      exact absurd rfl (Frame.kind_of_definition? hdefinition)
    · exact h.first hs

end Knows

namespace Builder

variable {config : Config} {b b' : Builder} {e : Event} {events : List Event}

/-- What the state of reading knows of the systems that were named. -/
structure Informed (systems : List ReferenceSystem) (tags : List Markup.Attributes) (b : Builder) :
    Prop where
  knows : Knows systems b.model.registry
  tracks : Tracks systems tags b.stack

namespace Informed

theorem opened (h : Informed systems tags b) (config : Config) (name : String)
    (attributes : Markup.Attributes) :
    Informed (systems ++ (b.namedSystem? attributes).toList) (attributes :: tags)
      (b.openElement config name attributes) := by
  obtain ⟨m, e, more, hopened, hkeeps, -, hread⟩ := b.openElement_keeps config name attributes
  have hstack : b.stack.Changed Frame.SameRole m.stack := by
    rw [← stack_define b (b.mention? attributes)]
    exact hkeeps.stack
  rw [hopened]
  refine ⟨?_, .cons ?_ (fun hskip => ?_) (fun hskip => ?_) fun hskip name hname => ?_⟩
  · show Knows _ m.model.registry
    rw [hkeeps.registry]
    exact h.knows.tag attributes
  · exact (h.tracks.mono (List.subset_append_left _ _)).changed hstack
  · rw [hstack.isSkipped_eq]
    exact (hread hskip).1
  · rw [hstack.srs?_eq]
    exact (hread hskip).2
  · have hnamed : b.namedSystem? attributes = some ⟨name, statedDimension? attributes⟩ := by
      rw [namedSystem?, (hread hskip).1, if_neg Bool.false_ne_true, hname]
      rfl
    rw [hnamed]
    exact ⟨_, List.mem_append_right _ (List.mem_singleton_self _), rfl⟩

theorem closed {e : OpenElement} {outer : Stack} (h : Informed systems tags b)
    (hs : b.stack = e :: outer)
    (hclose : ({ b with stack := outer } : Builder).closeFrame config e.srs e.frame = .ok b') :
    Informed systems tags.tail b' := by
  have hkeeps := closeFrame_keeps hclose
  have hstack := hkeeps.stack
  rw [stack_define] at hstack
  have htracks := h.tracks
  rw [hs] at htracks
  cases htracks with
  | cons houter _ _ _ =>
    refine ⟨?_, houter.changed hstack⟩
    rw [hkeeps.registry]
    exact Knows.ended (b := { b with stack := outer }) h.knows config e.frame

theorem apply (h : Informed systems tags b) (he : b.apply config e = .ok b') :
    Informed (systems ++ (b.systemOf? e).toList) (tagsAfter tags e) b' := by
  cases e with
  | offset bytes =>
    obtain rfl := Except.ok.inj he
    rw [systemOf?, Option.toList_none, List.append_nil]
    exact ⟨h.knows, h.tracks⟩
  | text content =>
    obtain rfl := eq_of_apply_text he
    have hkeeps := addText_keeps b content
    rw [systemOf?, Option.toList_none, List.append_nil]
    exact ⟨hkeeps.registry ▸ h.knows, h.tracks.changed hkeeps.stack⟩
  | opened name attributes =>
    obtain rfl := eq_of_apply_opened he
    exact h.opened config name attributes
  | closed name =>
    obtain ⟨e, outer, hs, -, hclose⟩ := exists_of_apply_closed he
    rw [systemOf?, Option.toList_none, List.append_nil]
    exact h.closed hs hclose

theorem applyAll (h : Informed systems tags b) (he : b.applyAll config events = .ok b') :
    Informed (systems ++ b.namedSystems config events) (events.foldl tagsAfter tags) b' := by
  induction events generalizing b systems tags with
  | nil =>
    obtain rfl := Except.ok.inj he
    rw [namedSystems, List.append_nil]
    exact h
  | cons e events ih =>
    obtain ⟨m, hm, hrest⟩ := applyAll_cons_eq_ok he
    rw [namedSystems, feed_of_ok hm, ← List.append_assoc]
    exact ih (h.apply hm) hrest

theorem start (config : Config) : Informed [] [] (start config) where
  knows := ⟨fun h => absurd h (Option.some_ne_none _).symm, fun _ h => absurd h List.not_mem_nil⟩
  tracks := .nil

/-- The dimension that is looked up for a system whose name stands for itself, if it has been
named and no other definition has its name. -/
theorem exists_systemDimension? (h : Informed systems tags b) {name : String}
    (hnamed : ∃ system ∈ systems, system.name = name) (hbare : Model.bareId name = name)
    (hdefines : b.model.defines name = false) :
    ∃ system, systems.find? (·.name = name) = some system ∧
      b.systemDimension? (some name) = system.dimension := by
  obtain ⟨named, hmem, rfl⟩ := hnamed
  have htaken := h.knows.taken named hmem
  rw [Table.contains_eq_isSome] at htaken
  obtain ⟨d, hd⟩ := Option.isSome_iff_exists.1 htaken
  rw [Model.defines, hd, Option.any_some] at hdefines
  cases d with
  | referenceSystem system =>
    refine ⟨system, h.knows.first hd, ?_⟩
    have hresolve : b.model.resolve? named.name = some (.referenceSystem system) := by
      rw [Model.resolve?, hbare, Model.definition?, hd]
      rfl
    rw [systemDimension?, Option.bind_some, hresolve]
  | _ => cases hdefines

end Informed

end Builder

/-! ### Lists of positions -/

/-- What is collected for an element whose text is read. -/
def Frame.text? : Frame → Option TextParts
  | text t => some t
  | _ => none

theorem Frame.eq_text {f : Frame} {t : TextParts} (h : f.text? = some t) : f = .text t := by
  cases f <;> cases h
  rfl

/-- The end of an element with positions reads its text. -/
theorem Builder.apply_closed_positions {b : Builder} {e : OpenElement} {outer : Stack}
    {t : TextParts} {kind : PositionText} (hactive : b.isAborted = false) (config : Config)
    (hs : b.stack = e :: outer) (hframe : e.frame = .text t) (ht : t.element = .positions kind) :
    b.apply config (.closed e.name) =
      .ok ({ b with stack := outer }.closePositions config e.srs kind t.attributes
        (Text.trimmed t.content)) := by
  rw [Builder.apply_closed config hactive]
  refine Builder.closeElement_of_closeFrame hs ?_
  rw [hframe, Builder.closeFrame, Builder.closeText, ht]

/-- **Positions have the dimension that their system has where it is first named.**  A list of
positions states no dimension, and the innermost tag around it that names a system, or its own tag,
names `name`.  Then its numbers are grouped by the dimension that the first tag to name that system
states, or by three if that tag states none, whatever other tags and the shared registry state.
Points that are read so go to the element around the list, and a list that cannot be read so is
reported. -/
theorem positions_firstNamed {config : Config} {events : List Event} {b : Builder}
    {e : OpenElement} {outer : Stack} {t : TextParts} {name : String}
    (h : (Builder.start config).applyAll config events = .ok b) (hs : b.stack = e :: outer)
    (hframe : e.frame = .text t) (ht : t.element = .positions .positionList)
    (hown : ∀ d ∈ t.attributes.value? "srsDimension",
      Decimal.readCount? (Decimal.greatest 64) (Text.trim d.toList) = none)
    (hsystem : systemAround? (openTags events) = some name) (hbare : Model.bareId name = name)
    (hdefines : b.model.defines name = false) :
    ∃ system, ((Builder.start config).namedSystems config events).find? (·.name = name) =
        some system ∧
      (∀ points,
        readPositions (Text.trimmed t.content) (system.dimension.getD 3) = .ok points →
        b.apply config (.closed e.name) =
          .ok { b with stack := Stack.updateOwner (·.takePoints .positionList
            (Builder.reproject config { b with stack := outer } e.srs points)) outer }) ∧
      ∀ fault,
        readPositions (Text.trimmed t.content) (system.dimension.getD 3) = .error fault →
        b.apply config (.closed e.name) =
          .ok ({ b with stack := Stack.updateOwner Frame.missPoints outer }.report (.value fault)
            (Stack.objectId? outer)) := by
  have hinformed : Builder.Informed ((Builder.start config).namedSystems config events)
      (openTags events) b := (Builder.Informed.start config).applyAll h
  have hread : b.stack.head?.any (·.frame.isSkipped) = false := by
    rw [hs, List.head?_cons, Option.any_some, hframe]
    rfl
  have hsrs := hinformed.tracks.srs?_eq hread
  have hnamed := hinformed.tracks.exists_named hread hsystem
  rw [hsystem, hs] at hsrs
  have hsrs : e.srs = some name := hsrs
  obtain ⟨system, hfirst, hdimension⟩ :=
    hinformed.exists_systemDimension? hnamed hbare hdefines
  refine ⟨system, hfirst, ?_⟩
  have hstated : (t.attributes.value? "srsDimension").bind (fun d =>
      Decimal.readCount? (Decimal.greatest 64) (Text.trim d.toList)) = none :=
    Option.bind_eq_none_iff.2 hown
  have hclose := Builder.apply_closed_positions (Builder.isAborted_of_applyAll h rfl) config hs
    hframe ht
  have hgrouped : PositionText.positionList.read t.attributes
      (Builder.dimension? { b with stack := outer } e.srs t.attributes) (Text.trimmed t.content) =
        readPositions (Text.trimmed t.content) (system.dimension.getD 3) := by
    rw [Builder.dimension?, hstated, PositionText.read, hsrs]
    exact congrArg (fun d => readPositions _ (Option.getD d 3)) hdimension
  constructor
  · intro points hpoints
    rw [hclose, Builder.closePositions, hgrouped, hpoints]
  · intro fault hfault
    rw [hclose, Builder.closePositions, hgrouped, hfault]

/-- A building with a wall, up to the list of its corners.  The wall names a system, and states two
dimensions. -/
def walled (earlier : List Event) (name : String) : List Event :=
  .opened "bldg:Building" [("gml:id", "B")] :: earlier ++
  [.opened "bldg:lod1MultiSurface" [],
   .opened "gml:Polygon" [("srsName", name), ("srsDimension", "2")],
   .opened "gml:exterior" [], .opened "gml:LinearRing" [],
   .opened "gml:posList" [], .text "0 0 4 0 4 3 2 5 0 3 0 0"]

/-- The corners, in pairs. -/
def corners : List (Vec3 Float) :=
  [⟨0, 0, 0⟩, ⟨4, 0, 0⟩, ⟨4, 3, 0⟩, ⟨2, 5, 0⟩, ⟨0, 3, 0⟩, ⟨0, 0, 0⟩]

/-- The wall is the first to name its system. -/
theorem positions_walled :
    ∃ b e outer, (Builder.start {}).applyAll {} (walled [] "S") = .ok b ∧ b.stack = e :: outer ∧
      b.apply {} (.closed e.name) =
        .ok { b with stack := Stack.updateOwner (·.takePoints .positionList corners) outer } := by
  have hstate : ((Builder.start {}).applyAll {} (walled [] "S")).toOption.map (fun b =>
      (b.stack.head?.bind (·.frame.text?), b.model.defines "S")) =
      some (some ⟨.positions .positionList, [], "0 0 4 0 4 3 2 5 0 3 0 0"⟩, false) := by
    decide +kernel
  obtain ⟨b, hb, hstate⟩ := exists_of_toOption_map hstate
  obtain ⟨htext, hdefines⟩ := Prod.mk.inj hstate
  cases hs : b.stack with
  | nil =>
    rw [hs] at htext
    cases htext
  | cons e outer =>
    rw [hs] at htext
    obtain ⟨system, hfirst, hgroups, -⟩ :=
      positions_firstNamed hb hs (Frame.eq_text htext) rfl
        (fun _ hd => absurd hd (Option.not_mem_none _)) (by decide +kernel) (by decide +kernel)
        hdefines
    have hfound : ((Builder.start {}).namedSystems {} (walled [] "S")).find? (·.name = "S") =
        some ⟨"S", some 2⟩ := by
      decide +kernel
    obtain rfl := Option.some.inj (hfirst.symm.trans hfound)
    have hread : (readPositions (Text.trimmed "0 0 4 0 4 3 2 5 0 3 0 0") 2).toOption.map id =
        some corners := by
      decide +kernel
    obtain ⟨points, hpoints, rfl⟩ := exists_of_toOption_map hread
    exact ⟨b, e, outer, hb, hs, hgroups corners hpoints⟩

/-- What closes the wall and the building. -/
def wallEnd : List Event :=
  [.closed "gml:posList", .closed "gml:LinearRing", .closed "gml:exterior", .closed "gml:Polygon",
   .closed "bldg:lod1MultiSurface", .closed "bldg:Building"]

/-- The innermost tag that names a system states two dimensions, and still the corners are read in
triples. -/
def IsRegrouped (events : List Event) : Prop :=
  ((openTags events).find? fun tag => (tag.value? "srsName").isSome).bind
    (·.value? "srsDimension") = some "2" ∧
  (readEvents { mode := .disabled } (events ++ wallEnd)).toOption.map
    (fun outcome => outcome.model.geometries.map (·.polygons.map (·.exterior.points))) =
      some [[[⟨0, 0, 4⟩, ⟨0, 4, 3⟩, ⟨2, 5, 0⟩, ⟨3, 0, 0⟩]]]

instance : DecidablePred IsRegrouped := fun _ => inferInstanceAs (Decidable (_ ∧ _))

/-- Three walls that are not heard: one after an envelope in space that names the same system, one
with a number sign in front of the name, and one whose system has the name of an appearance. -/
theorem positions_regrouped :
    IsRegrouped (walled [.opened "gml:boundedBy" [],
      .opened "gml:Envelope" [("srsName", "S"), ("srsDimension", "3")],
      .closed "gml:Envelope", .closed "gml:boundedBy"] "S") ∧
    IsRegrouped (walled [] "#S") ∧
    IsRegrouped (walled [.opened "app:appearance" [],
      .opened "app:Appearance" [("gml:id", "S")],
      .closed "app:Appearance", .closed "app:appearance"] "S") := by
  decide +kernel

end CityScene.Document

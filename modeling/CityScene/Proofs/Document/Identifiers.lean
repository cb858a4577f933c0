import CityScene.Proofs.Document.Definitions
import CityScene.Proofs.Document.Meshes
import Mathlib.Data.List.Nodup

/-!
# Identifiers

Objects, appearances and surface data that have no identifier in the document get one from a common
counter, whatever the elements before and after them are called.  So generated identifiers are all
different (`generatedIds_nodup`), but nothing keeps them apart from those that are written
(`clashing_generated`).

Where they are apart, there are no collisions at all (`identifiers_readEvents`).  The proof counts,
for each identifier, the objects and the open elements that hold it and the definition that is
registered under it (`Builder.holders`).  No event raises that number by more than the identifiers
that its tag brings in (`holders_apply`), so it is never more than one.
-/

namespace CityScene

namespace Document

/-! ### Numbered identifiers -/

/-- The digits of a number hold no underscore, so they are what stands after the last one. -/
theorem digits_of_numbered (stem : String) (n : Nat) :
    (s!"{stem}_{n}".toList.reverse.takeWhile (· != '_')).reverse = Nat.toDigits 10 n := by
  have htext : s!"{stem}_{n}".toList.reverse =
      (Nat.toDigits 10 n).reverse ++ '_' :: stem.toList.reverse := by
    simp [toString, Nat.toList_repr]
  have hdigits : ∀ c ∈ (Nat.toDigits 10 n).reverse, (c != '_') = true := fun c hc => by
    have hdigit := Nat.isDigit_of_mem_toDigits (by decide) (by decide) (List.mem_reverse.1 hc)
    rw [bne_iff_ne]
    rintro rfl
    exact absurd hdigit (by decide)
  rw [htext, List.takeWhile_append_of_pos hdigits, List.takeWhile_cons_of_neg (by decide),
    List.append_nil, List.reverse_reverse]

/-- Identifiers with different numbers are different, whatever stands in front. -/
theorem number_of_numbered {stem other : String} {m n : Nat}
    (h : s!"{stem}_{m}" = s!"{other}_{n}") : m = n := by
  have hdigits : Nat.toDigits 10 m = Nat.toDigits 10 n := by
    rw [← digits_of_numbered stem, h, digits_of_numbered]
  have hnumbers := congrArg (Nat.ofDigitChars 10 · 0) hdigits
  rwa [Nat.ofDigitChars_toDigits (by decide) (by decide),
    Nat.ofDigitChars_toDigits (by decide) (by decide)] at hnumbers

/-! ### Identifiers of a document -/

/-- The identifier that is written in a tag. -/
def Event.writtenId? : Event → Option String
  | .opened _ attributes => attributes.value? "id"
  | _ => none

/-- The identifiers that are written in a document, in order. -/
def writtenIds (events : List Event) : List String :=
  events.flatMap (·.writtenId?.toList)

theorem writtenIds_cons (e : Event) (rest : List Event) :
    writtenIds (e :: rest) = e.writtenId?.toList ++ writtenIds rest :=
  List.flatMap_cons

namespace Builder

/-- The identifier that an event has generated, if it opens an element that needs one and has
none. -/
def generatedId? (config : Config) (b : Builder) : Event → Option String
  | .opened name attributes =>
    if b.stack.head?.any (·.frame.isSkipped) then none
    else b.anonymousId? config (Markup.localName name) attributes
  | _ => none

/-- The identifiers that the events of a run have generated, in order. -/
def generatedIds (config : Config) (b : Builder) : List Event → List String
  | [] => []
  | e :: rest => (b.generatedId? config e).toList ++ generatedIds config (b.feed config e).1 rest

variable {config : Config} {b b' m : Builder} {e : Event} {events : List Event}

theorem generatedIds_cons (h : b.apply config e = .ok m) (rest : List Event) :
    b.generatedIds config (e :: rest) =
      (b.generatedId? config e).toList ++ m.generatedIds config rest := by
  rw [generatedIds, feed_of_ok h]

/-- The counter goes up where an identifier is generated. -/
theorem generated_enter {name : String} {attributes : Markup.Attributes} {id : String}
    (h : b.anonymousId? config (Markup.localName name) attributes = some id)
    (srs : Option String) :
    (b.enter config name attributes srs).generated = b.generated + 1 ∧
      ∃ stem : String, id = s!"{stem}_{b.generated + 1}" := by
  rw [anonymousId?] at h
  split at h
  · cases h
  · next hnone =>
    have hnone : attributes.value? "id" = none := by simpa using hnone
    obtain ⟨stem, hstem, rfl⟩ := Option.map_eq_some_iff.1 h
    refine ⟨?_, stem, rfl⟩
    rw [enter, openFrame]
    cases helement : Element.ofTag (Markup.localName name) attributes with
    | object kind =>
      rw [helement, Element.stem?] at hstem
      split at hstem
      · next hkind =>
        dsimp only
        rw [if_pos hkind, hnone]
        rfl
      · cases hstem
    | appearance => dsimp only; rw [hnone]; rfl
    | material => dsimp only; rw [hnone]; rfl
    | texture kind => dsimp only; rw [hnone]; rfl
    | _ => rw [helement] at hstem; cases hstem

/-- The counter never goes down. -/
theorem generated_le_apply (h : b.apply config e = .ok m) : b.generated ≤ m.generated :=
  (step_of_apply h).keeps (P := fun m => b.generated ≤ m.generated)
    (fun htouch hle => by
      cases htouch with
      | numbered => exact Nat.le_succ_of_le hle
      | _ => exact hle)
    (fun _ hle => hle) (fun _ hle => hle) (fun _ hle => hle) (Nat.le_refl _)

/-- An identifier is generated with the number that the counter then has. -/
theorem generatedId?_eq (h : b.apply config e = .ok m) {id : String}
    (hid : b.generatedId? config e = some id) :
    m.generated = b.generated + 1 ∧ ∃ stem : String, id = s!"{stem}_{m.generated}" := by
  cases e with
  | opened name attributes =>
    rw [generatedId?] at hid
    split at hid
    · cases hid
    · next hread =>
      obtain rfl := eq_of_apply_opened h
      rw [openElement_eq, if_neg hread]
      split
      · next system _ =>
        let mentioned := b.mentionSystem system attributes
        have hsame :
            mentioned.anonymousId? config (Markup.localName name) attributes = some id := by
          rw [← hid, anonymousId?, anonymousId?, generated_mentionSystem]
        obtain ⟨hcount, stem, rfl⟩ := generated_enter hsame (some system)
        exact ⟨hcount, stem, by rw [hcount]⟩
      · obtain ⟨hcount, stem, rfl⟩ := generated_enter hid b.stack.srs?
        exact ⟨hcount, stem, by rw [hcount]⟩
  | _ => cases hid

theorem exists_of_mem_generatedIds (h : b.applyAll config events = .ok b') {id : String}
    (hid : id ∈ b.generatedIds config events) :
    ∃ (stem : String) (n : Nat), b.generated < n ∧ id = s!"{stem}_{n}" := by
  induction events generalizing b with
  | nil => cases hid
  | cons e events ih =>
    obtain ⟨m, he, hrest⟩ := applyAll_cons_eq_ok h
    rw [generatedIds_cons he] at hid
    rcases List.mem_append.1 hid with hid | hid
    · obtain ⟨hcount, stem, rfl⟩ := generatedId?_eq he (Option.mem_toList.1 hid)
      exact ⟨stem, m.generated, by omega, rfl⟩
    · obtain ⟨stem, n, hn, rfl⟩ := ih hrest hid
      exact ⟨stem, n, (generated_le_apply he).trans_lt hn, rfl⟩

/-- **Generated identifiers are all different.** -/
theorem generatedIds_nodup (h : b.applyAll config events = .ok b') :
    (b.generatedIds config events).Nodup := by
  induction events generalizing b with
  | nil => exact .nil
  | cons e events ih =>
    obtain ⟨m, he, hrest⟩ := applyAll_cons_eq_ok h
    rw [generatedIds_cons he]
    cases hid : b.generatedId? config e with
    | none => exact ih hrest
    | some id =>
      obtain ⟨-, stem, rfl⟩ := generatedId?_eq he hid
      refine List.nodup_cons.2 ⟨fun hmem => ?_, ih hrest⟩
      obtain ⟨stem', n, hn, heq⟩ := exists_of_mem_generatedIds hrest hmem
      exact absurd (number_of_numbered heq) hn.ne

/-! ### Holders of an identifier -/

/-- How often an identifier is held: by objects, by open elements, and by a definition. -/
def holders (b : Builder) (id : String) : Nat :=
  b.held.count id + (b.model.defines id).toNat

/-- How often an event brings in an identifier, written or generated. -/
def given (config : Config) (b : Builder) (e : Event) (id : String) : Nat :=
  e.writtenId?.toList.count id + (b.generatedId? config e).toList.count id

theorem Keeps.holders_le {more : List String} (h : Keeps more b b') (id : String) :
    b'.holders id ≤ b.holders id + more.count id := by
  have hheld := h.held id
  rw [holders, holders, Model.defines, Model.defines, h.registry]
  omega

theorem holders_define (b : Builder) (key : String) (d : Definition) (id : String) :
    (b.define (some (key, d))).holders id ≤ b.holders id + [key].count id := by
  rw [holders, holders, Model.defines, define, Model.register, Table.get?_insert]
  split
  · next heq =>
    subst heq
    have hone := Bool.toNat_le ((some d).any fun d => d.kind ≠ .referenceSystem)
    rw [List.count_singleton_self, held, held]
    dsimp only
    omega
  · exact Nat.le_add_right _ _

/-- Registering a reference system makes no difference. -/
theorem holders_mention (b : Builder) (attributes : Markup.Attributes) (id : String) :
    (b.define (b.mention? attributes)).holders id ≤ b.holders id := by
  cases hmention : b.mention? attributes with
  | none => exact Nat.le_refl _
  | some mention =>
    obtain ⟨name, d⟩ := mention
    obtain ⟨system, -, hmention⟩ := Option.bind_eq_some_iff.1 hmention
    rw [Builder.mention] at hmention
    split at hmention
    · cases hmention
    · cases hmention
      rw [holders, holders, Model.defines, define, Model.register, Table.get?_insert]
      split
      · exact Nat.add_le_add_left (Nat.zero_le _) _
      · exact Nat.le_refl _

/-- What an element that ends registers or hands on, it has held. -/
theorem holders_ended (config : Config) (b : Builder) (f : Frame) (id : String) :
    (b.define (f.definition? config)).holders id + f.objectIds.count id ≤
      b.holders id + f.ids.count id := by
  cases hdefinition : f.definition? config with
  | none =>
    refine Nat.add_le_add_left ?_ _
    cases f with
    | object o => exact Nat.le_refl _
    | _ => exact Nat.zero_le _
  | some entry =>
    obtain ⟨key, d⟩ := entry
    have hobject : f.objectIds = [] := by
      cases f with
      | object o => cases hdefinition
      | _ => rfl
    rw [hobject, Frame.ids_of_definition? hdefinition]
    exact holders_define b key d id

theorem holders_cons (b : Builder) (e : OpenElement) (s : Stack) (id : String) :
    { b with stack := e :: s }.holders id =
      { b with stack := s }.holders id + e.frame.ids.count id := by
  rw [holders, holders, held, held]
  dsimp only
  rw [Stack.ids_cons, List.count_append, List.count_append, List.count_append]
  omega

/-- **An event adds no more holders than its tag brings in identifiers.** -/
theorem holders_apply (h : b.apply config e = .ok b') (id : String) :
    b'.holders id ≤ b.holders id + b.given config e id := by
  cases e with
  | offset bytes =>
    obtain rfl := Except.ok.inj h
    exact Nat.le_add_right _ _
  | text content =>
    obtain rfl := eq_of_apply_text h
    exact ((addText_keeps b content).holders_le id).trans (Nat.le_add_right _ _)
  | opened name attributes =>
    obtain rfl := eq_of_apply_opened h
    obtain ⟨m, e, more, hopened, hkeeps, hids, -⟩ := b.openElement_keeps config name attributes
    have hkept := hkeeps.holders_le id
    have hmentioned := b.holders_mention attributes id
    have hcount := hids.count_le id
    have hgiven : (if b.stack.head?.any (·.frame.isSkipped) then []
        else b.givenIds config (Markup.localName name) attributes).count id ≤
          b.given config (.opened name attributes) id := by
      rw [given, Event.writtenId?, generatedId?]
      split
      · exact Nat.zero_le _
      · rw [givenIds, List.count_append]
    rw [List.count_append] at hcount
    have hpush : { m with stack := e :: m.stack }.holders id =
        m.holders id + e.frame.ids.count id := holders_cons m e m.stack id
    rw [hopened, hpush]
    omega
  | closed name =>
    obtain ⟨e, outer, hs, -, hframe⟩ := exists_of_apply_closed h
    have hclosed := (closeFrame_keeps hframe).holders_le id
    have hended := holders_ended config { b with stack := outer } e.frame id
    have hopen := holders_cons b e outer id
    rw [show { b with stack := e :: outer } = b by rw [← hs]] at hopen
    omega

/-- How often an identifier is held or is still to come. -/
def due (config : Config) (b : Builder) (events : List Event) (id : String) : Nat :=
  b.holders id + (writtenIds events ++ b.generatedIds config events).count id

theorem due_apply (h : b.apply config e = .ok m) (rest : List Event) (id : String) :
    m.due config rest id ≤ b.due config (e :: rest) id := by
  have hstep := holders_apply h id
  rw [given] at hstep
  rw [due, due, generatedIds_cons h, writtenIds_cons]
  simp only [List.count_append]
  omega

/-- What is held was to come before. -/
theorem due_applyAll (h : b.applyAll config events = .ok m) (later : List Event) (id : String) :
    m.due config later id ≤ b.due config (events ++ later) id := by
  induction events generalizing b with
  | nil =>
    obtain rfl := Except.ok.inj h
    exact Nat.le_refl _
  | cons e events ih =>
    obtain ⟨n, he, hrest⟩ := applyAll_cons_eq_ok h
    exact (ih hrest).trans (due_apply he _ id)

/-! ### Definitions stay -/

variable {id : String} {d : Definition}

theorem defines_of_get? (h : b.model.registry.get? id = some d)
    (hkind : d.kind ≠ .referenceSystem) : b.model.defines id = true := by
  rw [Model.defines, h, Option.any_some, decide_eq_true hkind]

/-- What an open element is to register has another identifier than what is registered, as long as
no identifier is held twice. -/
theorem ne_of_holders_le {e : OpenElement} {outer : Stack} {key : String} {d' : Definition}
    (hs : b.stack = e :: outer) (he : e.frame.definition? config = some (key, d'))
    (hone : b.holders id ≤ 1) (hdefines : b.model.defines id = true) : key ≠ id := by
  rintro rfl
  have hids := Frame.ids_of_definition? he
  have hheld : 0 < b.held.count key := by
    refine List.count_pos_iff.2 (List.mem_append_right _ ?_)
    rw [hs, Stack.ids_cons, hids]
    exact List.mem_cons_self
  rw [holders, hdefines, Bool.toNat_true] at hone
  omega

theorem get?_define_of_ne {key : String} {d' : Definition} (h : key ≠ id) :
    (b.define (some (key, d'))).model.registry.get? id = b.model.registry.get? id := by
  rw [define, Model.register, Table.get?_insert, if_neg h.symm]

/-- **No event replaces a definition** whose identifier is not held twice. -/
theorem get?_apply (h : b.apply config e = .ok b') (hone : b.holders id ≤ 1)
    (hkind : d.kind ≠ .referenceSystem) (hd : b.model.registry.get? id = some d) :
    b'.model.registry.get? id = some d := by
  cases e with
  | offset bytes =>
    obtain rfl := Except.ok.inj h
    exact hd
  | text content =>
    obtain rfl := eq_of_apply_text h
    rw [(addText_keeps b content).registry]
    exact hd
  | opened name attributes =>
    obtain rfl := eq_of_apply_opened h
    obtain ⟨m, e, more, hopened, hkeeps, -, -⟩ := b.openElement_keeps config name attributes
    rw [hopened]
    dsimp only
    rw [hkeeps.registry]
    cases hmention : b.mention? attributes with
    | none => exact hd
    | some mention =>
      obtain ⟨name, d'⟩ := mention
      refine (get?_define_of_ne ?_).trans hd
      -- a system is registered only where its name is free
      rintro rfl
      obtain ⟨system, -, hmention⟩ := Option.bind_eq_some_iff.1 hmention
      rw [Builder.mention, Table.contains_eq_isSome] at hmention
      split at hmention
      · cases hmention
      · next hfree =>
        cases hmention
        exact hfree (Option.isSome_of_eq_some hd)
  | closed name =>
    obtain ⟨e, outer, hs, -, hframe⟩ := exists_of_apply_closed h
    rw [(closeFrame_keeps hframe).registry]
    cases hdefinition : e.frame.definition? config with
    | none => exact hd
    | some entry =>
      obtain ⟨key, d'⟩ := entry
      have hne := ne_of_holders_le hs hdefinition hone (defines_of_get? hd hkind)
      exact (get?_define_of_ne hne).trans hd

theorem get?_applyAll (h : b.applyAll config events = .ok b') (hone : b.due config events id ≤ 1)
    (hkind : d.kind ≠ .referenceSystem) (hd : b.model.registry.get? id = some d) :
    b'.model.registry.get? id = some d := by
  induction events generalizing b with
  | nil =>
    obtain rfl := Except.ok.inj h
    exact hd
  | cons e events ih =>
    obtain ⟨m, he, hrest⟩ := applyAll_cons_eq_ok h
    have hheld : b.holders id ≤ 1 := (Nat.le_add_right _ _).trans hone
    exact ih hrest ((due_apply he events id).trans hone) (get?_apply he hheld hkind hd)

/-- What the end of an element registers is there afterwards. -/
theorem get?_closed {e : OpenElement} {outer : Stack}
    (h : b.apply config (.closed e.name) = .ok b') (hs : b.stack = e :: outer)
    (hdefinition : e.frame.definition? config = some (id, d)) :
    b'.model.registry.get? id = some d := by
  obtain ⟨e', outer', hs', -, hframe⟩ := exists_of_apply_closed h
  obtain ⟨rfl, rfl⟩ := List.cons.inj (hs.symm.trans hs')
  rw [(closeFrame_keeps hframe).registry, hdefinition, define, Model.register, Table.get?_insert,
    if_pos rfl]

/-- Completing a document gives no object another identifier. -/
theorem ids_complete (config : Config) (b : Builder) :
    (b.complete config).model.features.map (·.id) = objectIds b.model.objects := by
  obtain ⟨-, -, change, -, hobjects⟩ := b.complete_sameShape config
  rw [Model.features, Tree.walk_eq, Tree.map_label_forestSubtrees, hobjects,
    Tree.forestLabels_map, List.map_map]
  rfl

theorem registry_complete (config : Config) (b : Builder) :
    (b.complete config).model.registry = b.model.registry := by
  have hfinalize (m : Model) : m.finalize.1.registry = m.registry := by
    obtain ⟨kept, -, hbound⟩ := Model.exists_foldl_recordReference
      (m.mapPolygons (Model.paintPolygon m.paints))
      ((m.missedTargets m.paints).map fun id => Reference.ofLink id .polygon none)
    rw [Model.finalize, Model.bindAppearances, hbound]
    rfl
  by_cases hmode : config.mode = .deferred
  · rw [complete_of_deferred hmode]
    exact hfinalize _
  · rw [complete_of_not_deferred hmode]
    exact hfinalize _

end Builder

/-! ### Documents -/

variable {config : Config} {events : List Event}

/-- **Identifiers do not collide**, as long as those that are written in the document are all
different, and none of them is one that is generated.  Then no two objects of the model have the
same identifier; and what the end of an element registers replaces no definition under the same
identifier, a reference system of that name apart, and is not replaced.  Generated identifiers never
collide with each other. -/
theorem identifiers_readEvents {outcome : Outcome} (h : readEvents config events = .ok outcome)
    (hwritten : (writtenIds events).Nodup)
    (hfree : ∀ id ∈ (Builder.start config).generatedIds config events, id ∉ writtenIds events) :
    ((Builder.start config).generatedIds config events).Nodup ∧
    (outcome.model.features.map (·.id)).Nodup ∧
    ∀ b e outer id definition, Meets config events b (.closed e.name) → b.stack = e :: outer →
      e.frame.definition? config = some (id, definition) →
      (∀ old, b.model.registry.get? id = some old → old.kind = .referenceSystem) ∧
      outcome.model.registry.get? id = some definition := by
  obtain ⟨last, hlast, -, rfl⟩ := Builder.exists_of_readEvents_eq_ok h
  have hgenerated := Builder.generatedIds_nodup hlast
  have hall : (writtenIds events ++ (Builder.start config).generatedIds config events).Nodup :=
    List.nodup_append.2 ⟨hwritten, hgenerated, fun x hx y hy hxy => hfree y hy (hxy ▸ hx)⟩
  have hdue (id : String) : (Builder.start config).due config events id ≤ 1 := by
    have hcount := List.nodup_iff_count_le_one.1 hall id
    rwa [Builder.due, show (Builder.start config).holders id = 0 from rfl, Nat.zero_add]
  refine ⟨hgenerated, ?_, fun b e outer id definition hmeets hs hdefinition => ?_⟩
  · rw [Builder.ids_complete, List.nodup_iff_count_le_one]
    intro id
    have hlast := Builder.due_applyAll hlast [] id
    rw [List.append_nil, Builder.due, Builder.holders, Builder.held, List.count_append] at hlast
    have hle := hdue id
    omega
  · obtain ⟨before, after, rfl, hb⟩ := hmeets
    obtain ⟨m, hm, hrest⟩ := Builder.applyAll_append_eq_ok hlast
    obtain rfl := Except.ok.inj (hb.symm.trans hm)
    obtain ⟨closed, hclose, hafter⟩ := Builder.applyAll_cons_eq_ok hrest
    have hone := (Builder.due_applyAll hb (.closed e.name :: after) id).trans (hdue id)
    have hheld : b.holders id ≤ 1 := (Nat.le_add_right _ _).trans hone
    refine ⟨fun old hold => ?_, ?_⟩
    · by_contra hkind
      exact Builder.ne_of_holders_le hs hdefinition hheld (Builder.defines_of_get? hold hkind) rfl
    · -- once it is registered, the definition stays
      rw [Builder.registry_complete]
      refine Builder.get?_applyAll hafter ((Builder.due_apply hclose after id).trans hone)
        (Frame.kind_of_definition? hdefinition) ?_
      exact Builder.get?_closed hclose hs hdefinition

/-- An appearance without an identifier on a material with one, and a building of each sort. -/
def halfNamed : List Event :=
  [.opened "core:CityModel" [],
   .opened "core:appearanceMember" [], .opened "app:Appearance" [],
   .opened "app:surfaceDataMember" [],
   .opened "app:X3DMaterial" [("gml:id", "M")], .closed "app:X3DMaterial",
   .closed "app:surfaceDataMember",
   .closed "app:Appearance", .closed "core:appearanceMember",
   .opened "bldg:Building" [], .closed "bldg:Building",
   .opened "bldg:Building" [("gml:id", "B")], .closed "bldg:Building",
   .closed "core:CityModel"]

theorem identifiers_halfNamed :
    ∃ outcome, readEvents {} halfNamed = .ok outcome ∧
      (Builder.start {}).generatedIds {} halfNamed = ["Appearance_1", "Building_2"] ∧
      (outcome.model.features.map (·.id)).Nodup ∧
      outcome.model.registry.get? "Appearance_1" =
        some (.appearance { id := "Appearance_1", surfaceData := ["M"] }) := by
  obtain ⟨outcome, h⟩ := exists_readEvents_of_gridless {}
    (nestAll_eq_nil_iff.1 (by decide) : WellNested halfNamed) (by decide)
  have hgenerated : (Builder.start {}).generatedIds {} halfNamed =
      ["Appearance_1", "Building_2"] := by decide +kernel
  -- the state in which the appearance ends
  obtain ⟨b, hb, hframe⟩ : ∃ b, (Builder.start {}).applyAll {} (halfNamed.take 7) = .ok b ∧
      b.stack.head?.bind (fun e => e.frame.definition? {}) =
        some ("Appearance_1", .appearance { id := "Appearance_1", surfaceData := ["M"] }) ∧
      b.stack.head?.map (·.name) = some "app:Appearance" := by
    have hstate : ((Builder.start {}).applyAll {} (halfNamed.take 7)).toOption.map (fun b =>
        (b.stack.head?.bind (fun e => e.frame.definition? {}), b.stack.head?.map (·.name))) =
        some (some ("Appearance_1",
          .appearance { id := "Appearance_1", surfaceData := ["M"] }), some "app:Appearance") := by
      decide +kernel
    obtain ⟨b, hb, hpair⟩ := exists_of_toOption_map hstate
    exact ⟨b, hb, Prod.mk.inj hpair⟩
  obtain ⟨-, hobjects, hdefinitions⟩ :=
    identifiers_readEvents h (by decide +kernel) (by rw [hgenerated]; decide +kernel)
  refine ⟨outcome, h, hgenerated, hobjects, ?_⟩
  cases hs : b.stack with
  | nil => rw [hs] at hframe; cases hframe.2
  | cons e outer =>
    rw [hs] at hframe
    have hname : e.name = "app:Appearance" := Option.some.inj hframe.2
    have hmeets : Meets {} halfNamed b (.closed e.name) :=
      ⟨halfNamed.take 7, halfNamed.drop 8, by rw [hname]; rfl, hb⟩
    exact (hdefinitions b e outer _ _ hmeets hs hframe.1).2

/-- A building that is called what the one before it is called for want of a name. -/
def clashing : List Event :=
  [.opened "core:CityModel" [],
   .opened "bldg:Building" [], .closed "bldg:Building",
   .opened "bldg:Building" [("gml:id", "Building_1")], .closed "bldg:Building",
   .closed "core:CityModel"]

/-- Different identifiers in the document do not make for different ones in the model. -/
theorem clashing_generated :
    (writtenIds clashing).Nodup ∧ ∃ outcome, readEvents {} clashing = .ok outcome ∧
      ¬ (outcome.model.features.map (·.id)).Nodup := by
  have hids : (readEvents {} clashing).toOption.map (fun o => o.model.features.map (·.id)) =
      some ["Building_1", "Building_1"] := by
    decide +kernel
  obtain ⟨outcome, h, hids⟩ := exists_of_toOption_map hids
  exact ⟨by decide +kernel, outcome, h, by rw [hids]; decide⟩

end Document

end CityScene

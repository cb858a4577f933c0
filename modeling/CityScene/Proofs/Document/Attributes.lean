import CityScene.Proofs.Document.ObjectTree
import CityScene.Proofs.Document.Texts

/-!
# The attributes of the objects of a document

The settings that a document gives an object are those of the elements that end while it is the
innermost open object (`Builder.settings`).  With its settings, each object that a document opens
has an account.

A run gives every object what its account says, and it leaves out no object but empty ones
(`Builder.results_applyAll`).  Whatever could not be read as its type has been reported
(`Builder.reported_applyAll`).  So the view of an object by the schema of its kind can be told from
the elements of the document (`schemaAttributes_readEvents`).
-/

namespace CityScene.Document

/-- The first list is the second one, up to what is left out along with empty objects. -/
structure LeavesOut {α : Type} (config : Config) (l l' : List α) : Prop where
  sublist : l.Sublist l'
  eq : config.prune = false → l = l'

theorem LeavesOut.trans {α : Type} {config : Config} {l l' l'' : List α}
    (h : LeavesOut config l l') (h' : LeavesOut config l' l'') : LeavesOut config l l'' :=
  ⟨h.sublist.trans h'.sublist, fun hprune => (h.eq hprune).trans (h'.eq hprune)⟩

/-- An object, and what elements are going to say of its attributes. -/
structure Account where
  sheet : Sheet
  settings : List Setting

/-- The sheet in the end. -/
def Account.result (a : Account) : Sheet :=
  a.sheet.takeAll a.settings

namespace Builder

variable {config : Config} {b b' : Builder} {e : Event} {events : List Event}

/-- The settings that events give the object that is open at a height, until it is closed.  The open
elements are written as `written` has it. -/
def settings (config : Config) (height : Nat) (written : List Written) (b : Builder) :
    List Event → List Setting
  | [] => []
  | e :: rest =>
    if b.depth < height then []
    else (b.stated? written e height).toList ++
      settings config height (writtenAfter written e) (b.feed config e).1 rest

/-- The account of a member. -/
def account (config : Config) (written : List Written) (b : Builder) (events : List Event)
    (p : Member) : Account :=
  ⟨p.2, b.settings config p.1 written events⟩

/-- The accounts of the objects that events open, in the order in which they are opened. -/
def openedAccounts (config : Config) (written : List Written) (b : Builder) :
    List Event → List Account
  | [] => []
  | e :: rest =>
    let next := (b.feed config e).1
    ((b.opened? config e).map (next.account config (writtenAfter written e) rest)).toList ++
      openedAccounts config (writtenAfter written e) next rest

/-- The accounts of the objects there are and of those that events open. -/
def accounts (config : Config) (written : List Written) (b : Builder) (events : List Event) :
    List Account :=
  b.roster.map (b.account config written events) ++ b.openedAccounts config written events

variable {written : List Written}

/-! ### Settings -/

theorem settings_of_lt {height : Nat} (h : b.depth < height) (events : List Event) :
    b.settings config height written events = [] := by
  cases events with
  | nil => rfl
  | cons e rest => rw [settings, if_pos h]

theorem settings_zero (written : List Written) (b : Builder) (events : List Event) :
    b.settings config 0 written events = [] := by
  induction events generalizing b written with
  | nil => rfl
  | cons e rest ih =>
    have hnone : b.stated? written e 0 = none := by
      unfold stated?
      split
      · exact if_neg fun h => absurd (Stack.objectHeight?_le_length h).1 (Nat.lt_irrefl 0)
      · rfl
    rw [settings, if_neg (Nat.not_lt_zero _), hnone, ih]
    rfl

theorem settings_cons (hcollects : Collects written b.stack) (h : b.apply config e = .ok b')
    {height : Nat} (hle : height ≤ b.depth) (rest : List Event) :
    b.settings config height written (e :: rest) =
      (b.setting? e height).toList ++
        b'.settings config height (writtenAfter written e) rest := by
  rw [settings, if_neg (Nat.not_lt.2 hle), feed_of_ok h, stated?_eq hcollects]

/-- An object that is finished is given nothing more. -/
theorem settings_retire (written : List Written) (b : Builder) (p : Member)
    (events : List Event) :
    b.settings config (retire b.depth p).1 written events =
      b.settings config p.1 written events := by
  rw [retire]
  dsimp only
  split
  · next h => rw [settings_zero, settings_of_lt h]
  · rfl

/-- What a member comes to is the same before and after an event. -/
theorem result_account (hcollects : Collects written b.stack) (h : b.apply config e = .ok b')
    {p : Member} (hp : p ∈ b.roster) (rest : List Event) :
    (b'.account config (writtenAfter written e) rest
        (retire b'.depth (assign (b.setting? e) p))).result =
      (b.account config written (e :: rest) p).result := by
  rw [account, Account.result, settings_retire, account, Account.result,
    settings_cons hcollects h (le_depth_of_mem_roster hp)]
  exact (List.foldl_append ..).symm

/-! ### Runs -/

theorem openedAccounts_cons (h : b.apply config e = .ok b') (rest : List Event) :
    b.openedAccounts config written (e :: rest) =
      (b.opened? config e).toList.map (b'.account config (writtenAfter written e) rest) ++
        b'.openedAccounts config (writtenAfter written e) rest := by
  rw [openedAccounts, feed_of_ok h]
  cases b.opened? config e <;> rfl

/-- One event leaves the accounts as they are, but for that of an object that is dropped. -/
theorem results_apply (hcollects : Collects written b.stack) (h : b.apply config e = .ok b')
    (rest : List Event) :
    LeavesOut config ((b'.accounts config (writtenAfter written e) rest).map Account.result)
      ((b.accounts config written (e :: rest)).map Account.result) := by
  obtain ⟨dropped, hroster, -, hkept⟩ := roster_apply h
  let after := b'.account config (writtenAfter written e) rest
  have hopen : (b.roster.map (b.account config written (e :: rest))).map Account.result =
      (((b.roster.map (assign (b.setting? e))).map (retire b'.depth)).map after).map
        Account.result := by
    rw [List.map_map, List.map_map, List.map_map, List.map_map]
    exact List.map_congr_left fun p hp => (result_account hcollects h hp rest).symm
  have hresults : (b.accounts config written (e :: rest)).map Account.result =
      ((b'.roster ++ dropped).map after ++
        b'.openedAccounts config (writtenAfter written e) rest).map Account.result := by
    rw [accounts, openedAccounts_cons h, ← List.append_assoc, List.map_append, List.map_append,
      hopen, ← hroster, List.map_append, List.map_append, List.map_append]
  rw [hresults, accounts, List.map_append, List.map_append, List.map_append, List.map_append]
  constructor
  · exact (List.sublist_append_left _ _).append_right _
  · intro hprune
    rw [hkept hprune, List.map_nil, List.map_nil, List.append_nil]

/-- **A run gives every object what its account says.** -/
theorem results_applyAll (hcollects : Collects written b.stack)
    (h : b.applyAll config events = .ok b') :
    LeavesOut config (b'.roster.map Prod.snd)
      ((b.accounts config written events).map Account.result) := by
  induction events generalizing b written with
  | nil =>
    obtain rfl := Except.ok.inj h
    have hresults : (b.accounts config written []).map Account.result =
        b.roster.map Prod.snd := by
      rw [accounts, openedAccounts, List.append_nil, List.map_map]
      rfl
    rw [hresults]
    exact ⟨List.Sublist.refl _, fun _ => rfl⟩
  | cons e events ih =>
    obtain ⟨m, he, hrest⟩ := applyAll_cons_eq_ok h
    exact (ih (collects_apply hcollects he) hrest).trans (results_apply hcollects he events)

theorem diagnostics_subset_of_applyAll (h : b.applyAll config events = .ok b') :
    b.diagnostics ⊆ b'.diagnostics := by
  induction events generalizing b with
  | nil =>
    obtain rfl := Except.ok.inj h
    exact List.Subset.refl _
  | cons e events ih =>
    obtain ⟨m, he, hrest⟩ := applyAll_cons_eq_ok h
    exact List.Subset.trans (diagnostics_subset_of_apply he) (ih hrest)

/-- **A run reports what accounts say and objects cannot take in as its type.** -/
theorem reported_applyAll (hcollects : Collects written b.stack)
    (h : b.applyAll config events = .ok b') :
    ∀ a ∈ b.accounts config written events, Reported b'.diagnostics a.sheet a.settings := by
  induction events generalizing b written with
  | nil =>
    intro a ha
    rw [accounts, openedAccounts, List.append_nil] at ha
    obtain ⟨p, -, rfl⟩ := List.mem_map.1 ha
    exact nofun
  | cons e events ih =>
    obtain ⟨m, he, hrest⟩ := applyAll_cons_eq_ok h
    have ih := ih (collects_apply hcollects he) hrest
    obtain ⟨dropped, hroster, hzero, -⟩ := roster_apply he
    -- a dropped object is finished, so nothing more is said of it
    have hlater {p : Member} (hp : p ∈ m.roster ++ dropped) :
        Reported b'.diagnostics p.2
          (m.settings config p.1 (writtenAfter written e) events) := by
      rcases List.mem_append.1 hp with hp | hp
      · exact ih _ (List.mem_append_left _ (List.mem_map_of_mem hp))
      · rw [hzero p hp, settings_zero]
        exact nofun
    rw [← hroster] at hlater
    intro a ha
    rw [accounts, openedAccounts_cons he] at ha
    rcases List.mem_append.1 ha with ha | ha
    · obtain ⟨p, hp, rfl⟩ := List.mem_map.1 ha
      intro s hs hvalue
      rw [account, settings_cons hcollects he (le_depth_of_mem_roster hp)] at hs
      rcases List.mem_append.1 hs with hs | hs
      · exact diagnostics_subset_of_applyAll hrest
          (reported_apply he hp (Option.mem_toList.1 hs) hvalue)
      · have hentry := hlater (List.mem_append_left _
          (List.mem_map_of_mem (List.mem_map_of_mem hp)))
        rw [settings_retire] at hentry
        have hreported := hentry s hs
        have hid : (retire m.depth (assign (b.setting? e) p)).2.id = p.2.id :=
          Sheet.id_takeAll _ _
        have hkind : (retire m.depth (assign (b.setting? e) p)).2.kind = p.2.kind :=
          Sheet.kind_takeAll _ _
        rw [hid, hkind] at hreported
        exact hreported hvalue
    · rcases List.mem_append.1 ha with ha | ha
      · obtain ⟨p, hp, rfl⟩ := List.mem_map.1 ha
        exact hlater (List.mem_append_right _ hp)
      · exact ih a (List.mem_append_right _ ha)

/-- Objects are opened without attributes. -/
theorem attributes_of_mem_openedAccounts {a : Account}
    (h : a ∈ b.openedAccounts config written events) : a.sheet.attributes = ∅ := by
  induction events generalizing b written with
  | nil => cases h
  | cons e events ih =>
    rw [openedAccounts] at h
    rcases List.mem_append.1 h with h | h
    · obtain ⟨p, hp, rfl⟩ := Option.map_eq_some_iff.1 (Option.mem_toList.1 h)
      cases e with
      | opened name attributes => obtain ⟨_, -, rfl⟩ := Option.map_eq_some_iff.1 hp; rfl
      | _ => cases hp
    · exact ih h

end Builder

/-! ### Documents -/

theorem map_sheet_features (m : Model) : m.features.map Feature.sheet = sheets m.objects := by
  rw [Model.features, Tree.walk_eq, Tree.map_label_forestSubtrees, sheets]

/-- Completing a document changes no attribute. -/
theorem sheets_of_sameShape {m m' : Model} (h : m.SameShape m') :
    sheets m'.objects = sheets m.objects := by
  obtain ⟨-, -, change, -, hobjects⟩ := h
  rw [hobjects, sheets, Tree.forestLabels_map, List.map_map, sheets]
  rfl

/-- The account is that of the object, and tells its view by the schema wherever the object has no
generic attribute of the name. -/
structure Account.Tells (reports : List Diagnostic) (a : Account) (f : Feature) : Prop where
  id : f.id = a.sheet.id
  kind : f.kind = a.sheet.kind
  shows : ∀ name, (∀ s ∈ a.settings, s.name = name → s.stated = none) →
    f.Shows name a.settings reports

theorem Account.tells_of_result {reports : List Diagnostic} {a : Account} {f : Feature}
    (hattributes : a.sheet.attributes = ∅) (hreported : Reported reports a.sheet a.settings)
    (h : f.sheet = a.result) : a.Tells reports f := by
  obtain ⟨⟨id, kind, attributes⟩, settings⟩ := a
  obtain rfl : attributes = ∅ := hattributes
  exact ⟨(congrArg Sheet.id h).trans (Sheet.id_takeAll _ _),
    (congrArg Sheet.kind h).trans (Sheet.kind_takeAll _ _),
    fun name hname => Feature.shows_takeAll h hreported hname⟩

variable {config : Config} {events : List Event} {outcome : Outcome}

/-- **The views of attributes by the schema are told by the elements of the document.**  The objects
of the model are those that the document opens, in the same order, up to empty objects that are left
out; and each shows what the thematic elements say that it is given. -/
theorem schemaAttributes_readEvents (h : readEvents config events = .ok outcome) :
    ∃ accounts, LeavesOut config accounts ((Builder.start config).openedAccounts config [] events) ∧
      List.Forall₂ (Account.Tells outcome.diagnostics) accounts outcome.model.features := by
  obtain ⟨b, hb, hstack, rfl⟩ := Builder.exists_of_readEvents_eq_ok h
  have hcollects : Collects [] (Builder.start config).stack := .nil
  have hstart : (Builder.start config).accounts config [] events =
      (Builder.start config).openedAccounts config [] events := rfl
  have hroster : b.roster.map Prod.snd = (b.complete config).model.features.map Feature.sheet := by
    rw [map_sheet_features, sheets_of_sameShape (b.complete_sameShape config), Builder.roster,
      hstack, Stack.roster, List.append_nil, List.map_map]
    exact List.map_id _
  obtain ⟨hsublist, heq⟩ := Builder.results_applyAll hcollects hb
  rw [hroster, hstart] at hsublist heq
  obtain ⟨accounts, haccounts, hsheets⟩ := List.sublist_map_iff.1 hsublist
  refine ⟨accounts, ⟨haccounts, fun hprune => haccounts.eq_of_length ?_⟩, ?_⟩
  · have hlength := congrArg List.length (hsheets.symm.trans (heq hprune))
    rwa [List.length_map, List.length_map] at hlength
  have hsame : List.Forall₂ Eq (accounts.map Account.result)
      ((b.complete config).model.features.map Feature.sheet) := by
    rw [List.forall₂_eq_eq_eq]
    exact hsheets.symm
  have hresults := List.forall₂_map_right_iff.1 (List.forall₂_map_left_iff.1 hsame)
  refine ((List.forall₂_and_left _ _).2 ⟨fun a ha => haccounts.mem ha, hresults⟩).imp ?_
  rintro a f ⟨ha, hresult⟩
  have hreported : Reported (b.complete config).diagnostics a.sheet a.settings := by
    rw [← hstart] at ha
    exact fun s hs hvalue => List.mem_append_left _
      (List.mem_append_left _ (Builder.reported_applyAll hcollects hb a ha s hs hvalue))
  exact Account.tells_of_result (Builder.attributes_of_mem_openedAccounts ha) hreported hresult.symm

/-- A building with a height, and with a year that is given twice, the second time in words. -/
def datedBuilding : List Event :=
  [.opened "CityModel" [],
   .opened "bldg:Building" [("gml:id", "B")],
   .opened "bldg:measuredHeight" [("uom", "m")], .text " 9 ", .closed "bldg:measuredHeight",
   .opened "bldg:yearOfConstruction" [], .text "1950", .closed "bldg:yearOfConstruction",
   .opened "bldg:yearOfConstruction" [], .text "about 1950", .closed "bldg:yearOfConstruction",
   .closed "bldg:Building",
   .closed "CityModel"]

theorem schemaAttributes_datedBuilding :
    ∃ outcome f, readEvents {} datedBuilding = .ok outcome ∧ outcome.model.features = [f] ∧
      f.schemaAttribute "measuredHeight" =
        .ok (.measure (Float.ofBits 0x4022000000000000) (some "m")) ∧
      f.schemaAttribute "yearOfConstruction" =
        .error (.typeMismatch "yearOfConstruction" .integer .string) ∧
      ⟨.attributeType "yearOfConstruction" "about 1950" .integer, some "B"⟩ ∈
        outcome.diagnostics ∧
      f.schemaAttribute "roofType" = .error (.absent "roofType") ∧
      f.schemaAttribute "species" = .error (.notInSchema "species" .building) := by
  obtain ⟨outcome, h⟩ := exists_readEvents_of_gridless {}
    (nestAll_eq_nil_iff.1 (by decide) : WellNested datedBuilding) (by decide)
  obtain ⟨accounts, hopened, htells⟩ := schemaAttributes_readEvents h
  have haccounts : accounts.map (fun a => (a.sheet.id, a.sheet.kind, a.settings)) =
      [("B", .building, [⟨"measuredHeight", "9", some "m", none⟩,
        ⟨"yearOfConstruction", "1950", none, none⟩,
        ⟨"yearOfConstruction", "about 1950", none, none⟩])] := by
    rw [hopened.eq rfl]
    decide +kernel
  obtain ⟨⟨⟨id, kind, attributes⟩, settings⟩, rfl, ha⟩ := List.map_eq_singleton_iff.1 haccounts
  obtain ⟨f, rest, htold, hrest, hfeatures⟩ := List.forall₂_cons_left_iff.1 htells
  obtain rfl := List.forall₂_nil_left_iff.1 hrest
  cases ha
  obtain ⟨hid, hkind, hshows⟩ := htold
  have hthematic (name : String) := hshows name fun s hs _ => by
    simp only [List.mem_cons, List.not_mem_nil, or_false] at hs
    rcases hs with rfl | rfl | rfl <;> rfl
  dsimp only at hid hkind
  refine ⟨outcome, f, h, hfeatures, ?_, ?_, ?_, ?_, ?_⟩
  · exact ((hthematic _).value _).2 ⟨.measure, _, by rw [hkind]; decide, rfl, by decide +kernel⟩
  · exact ((hthematic _).typeMismatch _).2
      ⟨by rw [hkind]; decide, _, rfl, by decide +kernel⟩
  · rw [← hid]
    exact (hthematic "yearOfConstruction").reported .integer
      ⟨"yearOfConstruction", "about 1950", none, none⟩ (by rw [hkind]; decide) rfl
      (by decide +kernel)
  · exact (hthematic _).absent.2 ⟨by rw [hkind]; decide, by dsimp only; decide⟩
  · rw [← hkind]
    exact (hthematic _).notInSchema.2 (by rw [hkind]; decide)

end CityScene.Document

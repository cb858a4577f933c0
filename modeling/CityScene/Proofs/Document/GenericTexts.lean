import CityScene.Proofs.Document.Attributes
import CityScene.Proofs.Document.Spelling

/-!
# The texts of generic attributes

A generic attribute has its name in its tag and its value in an element inside of it.  The value is
read as the text that is written there, but the name stays as it is written, with the references in
it (`spells_genericText`).  So the two differ as soon as a character is escaped.
-/

namespace CityScene.Document

open Markup
open Text (encode)

/-- The element of a generic attribute of type string, with its name and value as written. -/
def genericText (name value : List Char) : List Char :=
  opening ⟨"gen:stringAttribute", [("name", String.ofList name)]⟩ ++
    (opening ⟨"gen:value", []⟩ ++
      (value ++ (closing "gen:value" ++ closing "gen:stringAttribute")))

example : genericText "roof".toList "red".toList =
    "<gen:stringAttribute name=\"roof\"><gen:value>red</gen:value></gen:stringAttribute>".toList := by
  decide +kernel

/-- The events of a generic attribute of type string. -/
def genericEvents (name value : String) : List Event :=
  [.opened "gen:stringAttribute" [("name", name)], .opened "gen:value" [], .text value,
    .closed "gen:value", .closed "gen:stringAttribute"]

theorem spells_genericText {name value text : List Char} (hname : '"' ∉ name)
    (h : Writes value text) : Spells 0 0 (encode (genericText name value))
      (genericEvents (String.ofList name) (String.ofList text)) := by
  have hgeneric : Tag.IsWritable ⟨"gen:stringAttribute", [("name", String.ofList name)]⟩ := by
    have htag : IsName "gen:stringAttribute".toList := by decide
    have hkey : IsName "name".toList := by decide
    refine ⟨htag, ⟨?_, ?_⟩, by simp⟩
    · intro a ha
      obtain rfl := List.mem_singleton.1 ha
      exact hkey
    · intro a ha
      obtain rfl := List.mem_singleton.1 ha
      show '"' ∉ (String.ofList name).toList
      rwa [String.toList_ofList]
  have hvalue : Tag.IsWritable ⟨"gen:value", []⟩ :=
    ⟨by decide, ⟨by simp, by simp⟩, by simp⟩
  have hclosing : Spells 2 0 (encode (closing "gen:value" ++ closing "gen:stringAttribute"))
      [.closed "gen:value", .closed "gen:stringAttribute"] := by
    have hinner : IsName "gen:value".toList := by decide
    have houter : IsName "gen:stringAttribute".toList := by decide
    rw [Text.encode_append]
    exact (spells_closing hinner).nested.append (spells_closing houter)
  rw [genericText, Text.encode_append, Text.encode_append]
  exact (spells_opening hgeneric).append
    ((spells_opening hvalue).nested.append (spells_text h hclosing))

theorem value?_singleton (key value name : String) :
    Attributes.value? [(key, value)] name =
      if localName key == name then some value else none := by
  rw [Attributes.value?, List.find?_singleton]
  dsimp only
  split <;> rfl

namespace Builder

variable {config : Config} {b : Builder}

theorem closeElement_cons (config : Config) (b : Builder) (e : OpenElement) :
    { b with stack := e :: b.stack }.closeElement config e.name =
      (b.closeFrame config e.srs e.frame).mapError .overflow :=
  if_pos rfl

theorem closeGeneric_string {o : ObjectParts} (hobject : b.stack.object? = some o)
    {name text : String} (hname : name ≠ "") (htext : Text.trimmed text = text) :
    b.closeGeneric { name := some name, type := .string, value := some text } =
      b.updateFeature (·.setAttribute name (.string text)) := by
  have hparse : Value.parseAs? text .string none = some (.string text) :=
    congrArg (fun s => some (Value.string s)) htext
  have hnamed : ¬ name.isEmpty = true := by simpa using hname
  have hinside : ¬ b.stack.object?.isNone = true := by simp [hobject]
  refine (if_neg hnamed).trans ((if_neg hinside).trans ?_)
  show b.setAttribute name text .string none _ = _
  rw [setAttribute, hparse]

/-- **A generic attribute gives the innermost object its text under its name.** -/
theorem applyAll_genericEvents {o : ObjectParts} (hactive : b.isAborted = false)
    (hskip : b.stack.head?.any (·.frame.isSkipped) = false) (hobject : b.stack.object? = some o)
    {name text : String} (hname : name ≠ "") (htext : Text.trimmed text = text) :
    b.applyAll config (genericEvents name text) =
      .ok (b.updateFeature (·.setAttribute name (.string text))) := by
  let within (value : Option String) : Builder :=
    { b with
      stack := ⟨"gen:stringAttribute", b.stack.srs?,
        .generic { name := some name, type := .string, value }⟩ :: b.stack }
  let reading (content : String) : Builder :=
    { within none with
      stack := ⟨"gen:value", b.stack.srs?,
        .text { element := .property .genericValue, attributes := [], content }⟩ ::
          (within none).stack }
  have hopen : b.apply config (.opened "gen:stringAttribute" [("name", name)]) =
      .ok (within none) := by
    have hkind : Element.ofTag (localName "gen:stringAttribute") [("name", name)] =
        .genericAttribute .string := by
      rw [show localName "gen:stringAttribute" = "stringAttribute" by decide]
      rfl
    have hsystem : Attributes.value? [("name", name)] "srsName" = none :=
      (value?_singleton ..).trans (if_neg (by decide))
    have hown : Attributes.value? [("name", name)] "name" = some name :=
      (value?_singleton ..).trans (if_pos (by decide))
    rw [apply_opened config hactive]
    refine congrArg Except.ok (openElement_of_openFrame hskip hsystem ?_)
    rw [openFrame, hkind]
    dsimp only
    rw [hown]
  have hinner : (within none).apply config (.opened "gen:value" []) = .ok (reading "") := by
    have hkind : Element.ofTag (localName "gen:value") [] = .text (.property .genericValue) := by
      decide +kernel
    rw [apply_opened (b := within none) config hactive]
    refine congrArg Except.ok (openElement_of_openFrame rfl rfl ?_)
    rw [openFrame, hkind]
  have hcollect : (reading "").apply config (.text text) = .ok (reading text) := by
    have htaken : (reading "").addText text = reading ("" ++ text) := rfl
    rw [String.empty_append] at htaken
    rw [← htaken]
    exact if_neg (by simp [reading, within, hactive])
  have hvalue : (reading text).apply config (.closed "gen:value") = .ok (within (some text)) := by
    rw [apply_closed (b := reading text) config hactive]
    refine (closeElement_cons config (within none) _).trans (congrArg Except.ok ?_)
    show (within none).closeProperty .genericValue [] (Text.trimmed text) = _
    rw [htext]
    rfl
  have hclose : (within (some text)).apply config (.closed "gen:stringAttribute") =
      .ok (b.updateFeature (·.setAttribute name (.string text))) := by
    rw [apply_closed (b := within (some text)) config hactive]
    refine (closeElement_cons config b _).trans (congrArg Except.ok ?_)
    exact closeGeneric_string hobject hname htext
  rw [genericEvents, applyAll_cons_of_ok hopen, applyAll_cons_of_ok hinner,
    applyAll_cons_of_ok hcollect, applyAll_cons_of_ok hvalue, applyAll_cons_of_ok hclose]
  rfl

end Builder

/-! ### Documents -/

variable {config : Config}

/-- A building with a generic attribute, as a document. -/
def namedBuilding (name value : List Char) : List Char :=
  opening ⟨"bldg:Building", [("gml:id", "B")]⟩ ++
    (genericText name value ++ closing "bldg:Building")

def buildingEvents (name value : String) : List Event :=
  .opened "bldg:Building" [("gml:id", "B")] ::
    (genericEvents name value ++ [.closed "bldg:Building"])

theorem spells_namedBuilding {name value text : List Char} (hname : '"' ∉ name)
    (h : Writes value text) : Spells 0 0 (encode (namedBuilding name value))
      (buildingEvents (String.ofList name) (String.ofList text)) := by
  have htag : Tag.IsWritable ⟨"bldg:Building", [("gml:id", "B")]⟩ := by
    have htag : IsName "bldg:Building".toList := by decide
    have hkey : IsName "gml:id".toList := by decide
    exact ⟨htag, ⟨by simpa using hkey, by decide⟩, by simp⟩
  have hclosing : IsName "bldg:Building".toList := by decide
  rw [namedBuilding, Text.encode_append, Text.encode_append]
  exact (spells_opening htag).append
    ((spells_genericText hname h).nested.append (spells_closing hclosing))

theorem readEvents_buildingEvents (hkind : config.acceptsKind .building = true)
    (hprune : config.prune = false) {name text : String} (hname : name ≠ "")
    (htext : Text.trimmed text = text) :
    ∃ outcome, readEvents config (buildingEvents name text) = .ok outcome ∧
      sheets outcome.model.objects =
        [⟨"B", .building, Dictionary.insert ∅ name (.string text)⟩] := by
  let within (o : ObjectParts) : Builder :=
    { Builder.start config with stack := [⟨"bldg:Building", none, .object o⟩] }
  let building : ObjectParts := { feature := { id := "B", kind := .building } }
  let named : ObjectParts :=
    { building with feature := building.feature.setAttribute name (.string text) }
  let object : CityObject := .node named.feature []
  let finished : Builder :=
    { Builder.start config with model := (Builder.start config).model.addObject object }
  have hopen : (Builder.start config).apply config (.opened "bldg:Building" [("gml:id", "B")]) =
      .ok (within building) := by
    have helement : Element.ofTag (localName "bldg:Building") [("gml:id", "B")] =
        .object .building := by decide +kernel
    have hid : Attributes.value? [("gml:id", "B")] "id" = some "B" := by decide
    rw [Builder.apply_opened config rfl]
    refine congrArg Except.ok (Builder.openElement_of_openFrame rfl (by decide) ?_)
    rw [Builder.openFrame, helement]
    dsimp only
    rw [if_pos hkind, hid]
    rfl
  have hgeneric : (within building).applyAll config (genericEvents name text) =
      .ok (within named) := Builder.applyAll_genericEvents rfl rfl rfl hname htext
  have hclose : (within named).apply config (.closed "bldg:Building") = .ok finished := by
    rw [Builder.apply_closed (b := within named) config rfl]
    refine (Builder.closeElement_cons config (Builder.start config) _).trans
      (congrArg Except.ok ?_)
    show (if config.prune && object.isEmpty then _ else _) = _
    rw [hprune, Bool.false_and, if_neg Bool.false_ne_true]
    rfl
  have hrun : (Builder.start config).applyAll config (buildingEvents name text) =
      .ok finished := by
    rw [buildingEvents, Builder.applyAll_cons_of_ok hopen, Builder.applyAll_append_of_ok hgeneric,
      Builder.applyAll_cons_of_ok hclose]
    rfl
  refine ⟨_, Builder.readEvents_of_applyAll hrun rfl, ?_⟩
  rw [sheets_of_sameShape (finished.complete_sameShape config)]
  have hfinish : named.finish none = .ok object := rfl
  exact sheets_finish hfinish

/-- The building of a document has the attribute under the name that is written in its tag. -/
theorem readText_namedBuilding (hkind : config.acceptsKind .building = true)
    (hprune : config.prune = false) {name value text : List Char} (hname : name ≠ [])
    (hquote : '"' ∉ name) (h : Writes value text) (htrim : Text.trim text = text) :
    ∃ outcome, readText config (String.ofList (namedBuilding name value)) = .ok outcome ∧
      sheets outcome.model.objects =
        [⟨"B", .building, Dictionary.insert ∅ (String.ofList name) (.string (String.ofList text))⟩] := by
  have htext : Text.trimmed (String.ofList text) = String.ofList text := by
    rw [Text.trimmed, String.toList_ofList, htrim]
  have hnamed : String.ofList name ≠ "" := by
    rwa [Ne, String.ofList_eq_empty_iff]
  obtain ⟨outcome, hread, hsheets⟩ := readEvents_buildingEvents hkind hprune hnamed htext
  exact ⟨outcome, readText_of_spells (spells_namedBuilding hquote h) hread, hsheets⟩

/-- **The value of a generic attribute is the text that is written, and its name is the writing.**
Wherever in an object the same writing of a text stands for the name and for the value of a generic
attribute, the object gets the text under the writing, and reading goes on after the attribute.
`escape` is one way of writing a text, and it is the text itself exactly if no character of it has a
name; so only then the name is the text, too. -/
theorem stringAttribute_of_writes {text : List Char} (hne : text ≠ [])
    (htrim : Text.trim text = text) :
    Writes (escape text) text ∧ (escape text = text ↔ ∀ c ∈ text, nameOf? c = none) ∧
    ∀ written, Writes written text →
      (∀ (config : Config) (offset opened : Nat) (b : Builder) (after : List UInt8),
        b.isAborted = false → b.stack.head?.any (·.frame.isSkipped) = false →
        b.stack.object?.isSome = true →
          readFrom config offset opened b (encode (genericText written written) ++ after) =
            readFrom config (offset + (encode (genericText written written)).length) opened
              (b.updateFeature
                (·.setAttribute (String.ofList written) (.string (String.ofList text)))) after) ∧
      (∀ config : Config, config.acceptsKind .building = true → config.prune = false →
        ∃ outcome,
          readText config (String.ofList (namedBuilding written written)) = .ok outcome ∧
          sheets outcome.model.objects = [⟨"B", .building,
            Dictionary.insert ∅ (String.ofList written) (.string (String.ofList text))⟩]) := by
  refine ⟨writes_escape text, escape_eq_self_iff, fun written h => ⟨?_, ?_⟩⟩
  · intro config offset opened b after hactive hskip hobject
    obtain ⟨o, hobject⟩ := Option.isSome_iff_exists.1 hobject
    have htext : Text.trimmed (String.ofList text) = String.ofList text := by
      rw [Text.trimmed, String.toList_ofList, htrim]
    have hname : String.ofList written ≠ "" := by
      rwa [Ne, String.ofList_eq_empty_iff, h.eq_nil_iff]
    exact spells_genericText h.quote_notMem h config b _ offset opened after hactive
      (Builder.applyAll_genericEvents hactive hskip hobject hname htext)
  · intro config hkind hprune
    exact readText_namedBuilding hkind hprune (mt h.eq_nil_iff.1 hne) h.quote_notMem h htrim

theorem stringAttribute_of_smithAndSons :
    ∃ outcome, readText {} ("<bldg:Building gml:id=\"B\"><gen:stringAttribute " ++
        "name=\"Smith &amp; Sons\"><gen:value>Smith &amp; Sons</gen:value>" ++
        "</gen:stringAttribute></bldg:Building>") = .ok outcome ∧
      sheets outcome.model.objects =
        [⟨"B", .building, Dictionary.insert ∅ "Smith &amp; Sons" (.string "Smith & Sons")⟩] := by
  have hne : "Smith & Sons".toList ≠ [] := by decide
  have htrim : Text.trim "Smith & Sons".toList = "Smith & Sons".toList := by decide
  obtain ⟨hwrites, -, hread⟩ := stringAttribute_of_writes hne htrim
  have hescape : escape "Smith & Sons".toList = "Smith &amp; Sons".toList := by decide
  rw [hescape] at hwrites
  obtain ⟨outcome, hread, hsheets⟩ := (hread _ hwrites).2 {} rfl rfl
  rw [String.ofList_toList, String.ofList_toList] at hsheets
  refine ⟨outcome, ?_, hsheets⟩
  rw [← hread]
  exact congrArg (readText {}) (by decide +kernel)

/-- The name is not the text that is escaped in it. -/
theorem attributes_ampersand :
    ∃ outcome attributes, readText {} ("<bldg:Building gml:id=\"B\">" ++
        "<gen:stringAttribute name=\"A&amp;B\"><gen:value>A&amp;B</gen:value>" ++
        "</gen:stringAttribute></bldg:Building>") = .ok outcome ∧
      escape "A&B".toList = "A&amp;B".toList ∧
      sheets outcome.model.objects = [⟨"B", .building, attributes⟩] ∧
      attributes.get? "A&B" = none ∧ attributes.get? "A&amp;B" = some (.string "A&B") := by
  have hkind : Config.acceptsKind {} .building = true := rfl
  have hname : "A&amp;B".toList ≠ [] ∧ '"' ∉ "A&amp;B".toList := by decide
  have htrim : Text.trim "A&B".toList = "A&B".toList := by decide
  have hescape : escape "A&B".toList = "A&amp;B".toList := by decide
  have hwrites := writes_escape "A&B".toList
  rw [hescape] at hwrites
  obtain ⟨outcome, hread, hsheets⟩ :=
    readText_namedBuilding hkind rfl hname.1 hname.2 hwrites htrim
  rw [String.ofList_toList, String.ofList_toList] at hsheets
  refine ⟨outcome, _, ?_, hescape, hsheets, by decide, by decide⟩
  rw [← hread]
  exact congrArg (readText {}) (by decide +kernel)

end CityScene.Document

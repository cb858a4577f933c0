import CityScene.Diagnostic
import CityScene.Feature
import CityScene.Proofs.Attribute.Coercion

/-!
# What elements say of the attributes of an object

An object gets its attributes from elements with a text.  The text is read as the type that the
schema has for the attribute, or as the type that a generic attribute states; where it is no text of
that type it is kept as a string.  Whoever asks for the attribute later has the value that is kept
turned into the type of the schema.

The two ways through the types agree: what is kept turns into the type that the text was read as if
and only if the text is of that type, and then into the value that was read (`coerce?_valueOr`).  So
the view by the schema tells the last text that an object was given (`shows_takeAll`).
-/

namespace CityScene

/-- A value that was read, or the text itself as a string, turned into the type it was read as. -/
theorem Value.coerce?_valueOr (text : String) (type : ValueType) (unit : Option String) :
    ((parseAs? text type unit).getD (.string text)).coerce? type = parseAs? text type unit := by
  cases h : parseAs? text type unit with
  | some v =>
    rw [Option.getD_some]
    unfold coerce?
    rw [if_pos (type_of_parseAs? h)]
  | none =>
    -- the unit does not decide whether a text is read
    have hnone : parseAs? text type none = none := by
      cases type with
      | measure => exact Option.map_eq_none_iff.2 (Option.map_eq_none_iff.1 h)
      | _ => exact h
    have hstring : (Value.string text).type ≠ type := by
      rintro rfl
      cases h
    rw [Option.getD_none, coerce?, if_neg hstring]
    exact hnone

/-! ### Settings -/

/-- An element that gives an object an attribute. -/
structure Setting where
  name : String
  text : String
  unit : Option String
  /-- The type that a generic attribute states; a thematic element states none. -/
  stated : Option ValueType
deriving DecidableEq

namespace Setting

variable (s : Setting) (kind : Kind)

/-- The type that the text is read as, given to an object of some kind. -/
def type : ValueType :=
  s.stated.getD ((kind.schemaType? s.name).getD .string)

def value? : Option Value :=
  Value.parseAs? s.text (s.type kind) s.unit

/-- What is kept. -/
def kept : Value :=
  (s.value? kind).getD (.string s.text)

/-- What is reported if the text is not of the type. -/
def problem : Problem :=
  if s.stated.isNone then .attributeType s.name s.text (s.type kind)
  else .genericType s.name s.text (s.type kind)

/-- The last of some settings with a name. -/
def last? (name : String) (settings : List Setting) : Option Setting :=
  settings.reverse.find? (·.name = name)

variable {name : String} {settings : List Setting}

theorem last?_cons (s : Setting) (settings : List Setting) :
    last? name (s :: settings) =
      (last? name settings).or (if s.name = name then some s else none) := by
  rw [last?, List.reverse_cons, List.find?_append, last?]
  by_cases h : s.name = name <;> simp [h]

theorem last?_eq_none_iff : last? name settings = none ↔ ∀ s ∈ settings, s.name ≠ name := by
  simp [last?]

theorem of_last? {s : Setting} (h : last? name settings = some s) :
    s ∈ settings ∧ s.name = name :=
  ⟨List.mem_reverse.1 (List.mem_of_find?_eq_some h), by simpa using List.find?_some h⟩

end Setting

/-! ### What an object takes in -/

/-- What of an object settings show in, and what they depend on. -/
structure Sheet where
  id : String
  kind : Kind
  attributes : Dictionary Value

def Feature.sheet (f : Feature) : Sheet :=
  ⟨f.id, f.kind, f.attributes⟩

namespace Sheet

def take (sheet : Sheet) (s : Setting) : Sheet :=
  { sheet with attributes := sheet.attributes.insert s.name (s.kept sheet.kind) }

/-- The sheet after some settings, one after the other. -/
def takeAll (sheet : Sheet) (settings : List Setting) : Sheet :=
  settings.foldl take sheet

theorem id_takeAll (sheet : Sheet) (settings : List Setting) :
    (sheet.takeAll settings).id = sheet.id := by
  induction settings generalizing sheet with
  | nil => rfl
  | cons s settings ih => exact ih _

theorem kind_takeAll (sheet : Sheet) (settings : List Setting) :
    (sheet.takeAll settings).kind = sheet.kind := by
  induction settings generalizing sheet with
  | nil => rfl
  | cons s settings ih => exact ih _

/-- The last setting with a name decides. -/
theorem get?_takeAll (sheet : Sheet) (settings : List Setting) (name : String) :
    (sheet.takeAll settings).attributes.get? name =
      ((Setting.last? name settings).map (·.kept sheet.kind)).or (sheet.attributes.get? name) := by
  induction settings generalizing sheet with
  | nil => rfl
  | cons s settings ih =>
    have hfirst : (sheet.take s).attributes.get? name =
        if name = s.name then some (s.kept sheet.kind) else sheet.attributes.get? name :=
      Dictionary.get?_insert _ _ _ _
    have hrest : ((sheet.take s).takeAll settings).attributes.get? name =
        ((Setting.last? name settings).map (·.kept sheet.kind)).or
          ((sheet.take s).attributes.get? name) := ih _
    rw [takeAll, List.foldl_cons, ← takeAll, hrest, hfirst, Setting.last?_cons]
    cases Setting.last? name settings with
    | some last => rfl
    | none =>
      by_cases h : s.name = name
      · rw [if_pos h.symm, if_pos h]
        rfl
      · rw [if_neg (Ne.symm h), if_neg h]
        rfl

end Sheet

/-! ### The view by the schema -/

namespace Feature

variable {f : Feature} {name : String} {type : ValueType}

theorem schemaAttribute_of_notInSchema (h : f.kind.schemaType? name = none) :
    f.schemaAttribute name = .error (.notInSchema name f.kind) := by
  rw [schemaAttribute, h]

theorem schemaAttribute_of_absent (h : f.kind.schemaType? name = some type)
    (hget : f.attributes.get? name = none) : f.schemaAttribute name = .error (.absent name) := by
  rw [schemaAttribute, h]
  dsimp only
  rw [typedAttribute, hget]

/-- Where a thematic element has set the attribute, the view gives what its text is as the type of
the schema.  Nothing else than a string is kept that is not of the type. -/
theorem schemaAttribute_of_kept {s : Setting} (h : f.kind.schemaType? s.name = some type)
    (hstated : s.stated = none) (hget : f.attributes.get? s.name = some (s.kept f.kind)) :
    f.schemaAttribute s.name =
      ((Value.parseAs? s.text type s.unit).map .ok).getD
        (.error (.typeMismatch s.name type .string)) := by
  have htype : s.type f.kind = type := by
    rw [Setting.type, hstated, h]
    rfl
  have hcoerce : (s.kept f.kind).coerce? type = Value.parseAs? s.text type s.unit := by
    rw [Setting.kept, Setting.value?, htype, Value.coerce?_valueOr]
  rw [schemaAttribute, h]
  dsimp only
  rw [typedAttribute, hget]
  dsimp only
  rw [hcoerce]
  cases hparse : Value.parseAs? s.text type s.unit with
  | some v => rfl
  | none =>
    rw [Setting.kept, Setting.value?, htype, hparse]
    rfl

/-- The view by the schema shows an attribute as these settings, all of them by thematic elements,
have it.  The text of the last one counts; if it is not of the type, that has been reported. -/
structure Shows (f : Feature) (name : String) (settings : List Setting)
    (reports : List Diagnostic) : Prop where
  notInSchema : f.schemaAttribute name = .error (.notInSchema name f.kind) ↔
    f.kind.schemaType? name = none
  absent : f.schemaAttribute name = .error (.absent name) ↔
    f.kind.schemaType? name ≠ none ∧ ∀ s ∈ settings, s.name ≠ name
  typeMismatch : ∀ type, f.schemaAttribute name = .error (.typeMismatch name type .string) ↔
    f.kind.schemaType? name = some type ∧ ∃ s, Setting.last? name settings = some s ∧
      Value.parseAs? s.text type s.unit = none
  reported : ∀ type s, f.kind.schemaType? name = some type →
    Setting.last? name settings = some s → Value.parseAs? s.text type s.unit = none →
    ⟨.attributeType name s.text type, some f.id⟩ ∈ reports
  value : ∀ v, f.schemaAttribute name = .ok v ↔
    ∃ type s, f.kind.schemaType? name = some type ∧ Setting.last? name settings = some s ∧
      Value.parseAs? s.text type s.unit = some v

end Feature

/-- What is reported of an object that was given these settings. -/
def Reported (reports : List Diagnostic) (sheet : Sheet) (settings : List Setting) : Prop :=
  ∀ s ∈ settings, s.value? sheet.kind = none → ⟨s.problem sheet.kind, some sheet.id⟩ ∈ reports

/-- **An object that was given nothing but these settings shows them.** -/
theorem Feature.shows_takeAll {f : Feature} {name id : String} {kind : Kind}
    {settings : List Setting} {reports : List Diagnostic}
    (hsheet : f.sheet = Sheet.takeAll ⟨id, kind, ∅⟩ settings)
    (hreported : Reported reports ⟨id, kind, ∅⟩ settings)
    (hname : ∀ s ∈ settings, s.name = name → s.stated = none) :
    f.Shows name settings reports := by
  have hid : f.id = id := (congrArg Sheet.id hsheet).trans (Sheet.id_takeAll _ _)
  have hkind : f.kind = kind := (congrArg Sheet.kind hsheet).trans (Sheet.kind_takeAll _ _)
  have hget : f.attributes.get? name = (Setting.last? name settings).map (·.kept f.kind) := by
    have h := Sheet.get?_takeAll ⟨id, kind, ∅⟩ settings name
    rw [← hsheet] at h
    rw [hkind]
    exact h.trans (Option.or_none)
  subst hid hkind
  cases htype : f.kind.schemaType? name with
  | none =>
    have hview := schemaAttribute_of_notInSchema htype
    constructor <;> simp [hview, htype]
  | some type =>
    cases hlast : Setting.last? name settings with
    | none =>
      rw [hlast] at hget
      have hview := schemaAttribute_of_absent htype hget
      have hnone := Setting.last?_eq_none_iff.1 hlast
      constructor <;> simp [hview, htype, hlast]
      exact hnone
    | some s =>
      obtain ⟨hmem, rfl⟩ := Setting.of_last? hlast
      rw [hlast] at hget
      have hview := schemaAttribute_of_kept htype (hname s hmem rfl) hget
      have hpresent : ¬ ∀ s' ∈ settings, s'.name ≠ s.name := fun h => h s hmem rfl
      have hreport : Value.parseAs? s.text type s.unit = none →
          ⟨.attributeType s.name s.text type, some f.id⟩ ∈ reports := fun hparse => by
        have h := hreported s hmem
        rw [Setting.problem, Setting.value?, Setting.type, hname s hmem rfl, htype] at h
        exact h hparse
      cases hparse : Value.parseAs? s.text type s.unit with
      | none =>
        rw [hparse] at hview
        constructor <;> simp [hview, htype, hlast, hparse, hpresent, hreport]
      | some v =>
        rw [hparse] at hview
        constructor <;> simp [hview, htype, hlast, hparse, hpresent]

end CityScene

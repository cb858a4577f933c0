import CityScene.Document.Opening
import CityScene.Document.Closing

/-!
# Events

A document is a sequence of events.  `Builder.apply` says what an event does or why it is refused;
`Builder.feed` also keeps the refusal, after which every event is refused.
-/

namespace CityScene.Document

inductive Event
  | opened (name : String) (attributes : Markup.Attributes)
  | text (content : String)
  | closed (name : String)
  /-- The byte offset of the next event, for error messages. -/
  | offset (bytes : Nat)
deriving DecidableEq, Repr

/-- What reading a document gives. -/
structure Outcome where
  model : Model
  diagnostics : List Diagnostic
  /-- The references that nothing answered, each identifier once per kind. -/
  unresolved : List Reference

namespace Builder

/-- The error that an earlier error has ended reading. -/
def abortedError (b : Builder) (element : String) : Error :=
  .malformed .aborted (b.context element)

/-- Closes the innermost element, which must have this name.  Nothing is left of a state in which this
overflows. -/
def closeElement (config : Config) (b : Builder) (name : String) : Except Error Builder :=
  match b.stack with
  | [] => .error (.malformed (.nothingOpen name) (b.context name))
  | e :: outer =>
    if e.name = name then
      ({ b with stack := outer }.closeFrame config e.srs e.frame).mapError .overflow
    else
      let hint := "Check that elements are closed in the order they were opened"
      .error (.malformed (.mismatch name e.name) { b.context name with hint := some hint })

/-- Adds character data to the innermost element. -/
def addText (b : Builder) (content : String) : Builder :=
  match b.stack with
  | [] => b
  | e :: outer => { b with stack := { e with frame := e.frame.takeText content } :: outer }

/-- What an event does, or why it is refused. -/
def apply (config : Config) (b : Builder) : Event → Except Error Builder
  | .offset bytes => .ok { b with offset := some bytes }
  | .opened name attributes =>
    if b.isAborted then .error (b.abortedError name)
    else .ok (b.openElement config name attributes)
  | .text content =>
    if b.isAborted then .error (b.abortedError "#text") else .ok (b.addText content)
  | .closed name =>
    if b.isAborted then .error (b.abortedError name) else b.closeElement config name

/-- The state after an event, and the error if the event was refused. -/
def feed (config : Config) (b : Builder) (e : Event) : Builder × Option Error :=
  match b.apply config e with
  | .ok b => (b, none)
  | .error error => ({ b with isAborted := true }, some error)

/-- The state after a sequence of events, some of which may be refused. -/
def feedAll (config : Config) (b : Builder) (events : List Event) : Builder :=
  events.foldl (fun b e => (b.feed config e).1) b

/-- The state after a sequence of events, or the first error. -/
def applyAll (config : Config) (b : Builder) (events : List Event) : Except Error Builder :=
  events.foldlM (Builder.apply config) b

/-- Completes the model: tessellation if it was put off, then appearances and references. -/
def complete (config : Config) (b : Builder) : Outcome :=
  let (meshed, failures) :=
    if config.mode = .deferred then b.model.tessellateAll config.smooth else (b.model, [])
  let (model, unresolved) := meshed.finalize
  let dangling := unresolved.map fun r => ⟨.dangling r, r.referrer⟩
  { model, diagnostics := b.diagnostics ++ failures ++ dangling, unresolved }

/-- Ends the document, in which no element may be open any more. -/
def finish (config : Config) (b : Builder) : Except Error Outcome :=
  if b.isAborted then .error (b.abortedError "#document")
  else
    match b.stack with
    | e :: _ => .error (.malformed (.unclosed b.stack.length) (b.context e.name))
    | [] => .ok (b.complete config)

end Builder

/-- Reads a whole sequence of events. -/
def readEvents (config : Config) (events : List Event) : Except Error Outcome := do
  let b ← (Builder.start config).applyAll config events
  b.finish config

end CityScene.Document

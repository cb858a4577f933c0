import CityScene.Markup.Fault
import CityScene.Overflow
import CityScene.Document.Value
import CityScene.Surface.Ring
import CityScene.Tessellation.Failure

/-!
# Errors

An `Error` holds the cause that ended an operation, and `message` words it.  Errors have a category
with a code; those of markup and structure end the reading of a document.  An overflow has none: it
ends everything.
-/

namespace CityScene

/-- Where in a document something went wrong. -/
structure Context where
  element : Option String := none
  /-- Byte offset in the document. -/
  offset : Option Nat := none
  hint : Option String := none
deriving DecidableEq, Repr

/-- The lines that tell the context, each on a line of its own. -/
def Context.text (c : Context) : String :=
  let lines :=
    (c.element.map fun name => s!"\nElement: <{name}>").toList ++
      (c.offset.map fun n => s!"\nLocation: byte {n}").toList ++
      (c.hint.map fun hint => s!"\nHint: {hint}").toList
  String.join lines

/-- Why elements do not make up a document. -/
inductive StructureFault
  /-- An event after an error. -/
  | aborted
  | nothingOpen (name : String)
  | mismatch (name opened : String)
  | unclosed (count : Nat)
  /-- A reason stated in words. -/
  | stated (reason : String)
deriving DecidableEq, Repr

def StructureFault.message : StructureFault → String
  | aborted => "Parsing was aborted by an earlier error"
  | nothingOpen name => s!"Closing tag </{name}> has no open element"
  | mismatch name opened => s!"Closing tag </{name}> does not match open element <{opened}>"
  | unclosed count => s!"Document ended with {count} unclosed element(s)"
  | stated reason => reason

/-- Why a texture has no image to show. -/
inductive TextureFault
  | notATexture (id : String)
  | material (id : String)
  | noImage (id : String)
  /-- A reason stated in words. -/
  | stated (reason : String)
deriving DecidableEq, Repr

def TextureFault.message : TextureFault → String
  | notATexture id => s!"'{id}' is not a texture"
  | material id => s!"'{id}' is a material"
  | noImage id => s!"Texture '{id}' has no image URI"
  | stated reason => reason

inductive Error
  | io (reason : String)
  | markup (fault : Markup.Fault)
  | tag (fault : Markup.TagFault)
  | malformed (fault : StructureFault) (context : Context)
  | ring (fault : RingFault)
  | tessellation (failure : Tessellation.Failure Float)
  | value (fault : Document.ValueFault)
  | content (fault : Markup.ContentFault)
  | notFound (id : String)
  /-- Something is mentioned, as told in words, that is nowhere defined. -/
  | danglingReference (mention : String)
  | texture (fault : TextureFault)
  /-- A number does not fit in a machine word. -/
  | overflow (operation : Overflow)
deriving DecidableEq, Repr

/-- What an error is about. -/
inductive ErrorCategory
  | io
  | markup
  | tag
  | malformed
  | ring
  | tessellation
  | value
  | notFound
  | danglingReference
  | texture
deriving DecidableEq, Repr

namespace ErrorCategory

def code : ErrorCategory → String
  | io => "E1001"
  | markup => "E2001"
  | tag => "E2002"
  | malformed => "E2003"
  | ring => "E3001"
  | tessellation => "E3002"
  | value => "E3003"
  | notFound => "E4001"
  | danglingReference => "E4002"
  | texture => "E4003"

def title : ErrorCategory → String
  | io => "I/O error"
  | markup => "XML parsing error"
  | tag => "XML attribute error"
  | malformed => "Malformed document structure"
  | ring => "Invalid linear ring"
  | tessellation => "Tessellation failed"
  | value => "Parse error"
  | notFound => "Definition not found"
  | danglingReference => "Dangling reference"
  | texture => "Texture loading failed"

/-- An error of this category ends the reading of a document. -/
def isStructural : ErrorCategory → Bool
  | io | markup | tag | malformed => true
  | _ => false

end ErrorCategory

namespace Error

def category? : Error → Option ErrorCategory
  | io _ => some .io
  | markup _ => some .markup
  | tag _ => some .tag
  | malformed _ _ => some .malformed
  | ring _ => some .ring
  | tessellation _ => some .tessellation
  | value _ | content _ => some .value
  | notFound _ => some .notFound
  | danglingReference _ => some .danglingReference
  | texture _ => some .texture
  | overflow _ => none

/-- What happened, without the category. -/
def reason : Error → String
  | io reason => reason
  | markup fault => fault.message
  | tag fault => fault.message
  | malformed fault context => fault.message ++ context.text
  | ring fault => fault.message
  | tessellation failure => failure.message
  | value fault => fault.message
  | content fault => fault.message
  | notFound id => id
  | danglingReference mention => mention
  | texture fault => fault.message
  | overflow operation => operation.message

def message (e : Error) : String :=
  match e.category? with
  | some category => s!"[{category.code}] {category.title}: {e.reason}"
  | none => e.reason

def isStructural (e : Error) : Bool :=
  e.category?.any (·.isStructural)

end Error

end CityScene

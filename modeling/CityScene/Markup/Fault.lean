import CityScene.Text.Utf8
import CityScene.Decimal.Numeral

/-!
# Faults of markup

Three groups of faults and their wording: markup that does not come to an end or does not nest,
start tags with broken attributes, and character data that cannot be decoded.
-/

namespace CityScene.Markup

/-- A piece of markup with an end of its own. -/
inductive Construct
  | processingInstruction
  | declaration
  | comment
  | documentType
  | characterData
  | tag
  | attributeValue (quote : Char)
deriving DecidableEq, Repr

def Construct.name : Construct → String
  | processingInstruction => "processing instruction"
  | declaration => "XML declaration"
  | comment => "comment"
  | documentType => "DOCTYPE"
  | characterData => "CDATA"
  | tag => "tag"
  | attributeValue _ => "attribute value"

/-- What ends a piece of markup. -/
def Construct.terminator : Construct → String
  | processingInstruction | declaration => "?>"
  | comment => "-->"
  | documentType | tag => ">"
  | characterData => "]]>"
  | attributeValue quote => quote.toString

/-- Why bytes are no markup. -/
inductive Fault
  /-- An exclamation mark that opens nothing. -/
  | unknownMarkup
  | unclosed (construct : Construct)
  /-- An end tag where no element is open. -/
  | unmatchedEnd (name : String)
  | unnamedDocumentType
  | unclosedReference
deriving DecidableEq, Repr

def Fault.message : Fault → String
  | unknownMarkup => "syntax error: unknown or missed symbol in markup"
  | unclosed c =>
    s!"syntax error: {c.name} not closed: " ++ s!"`{c.terminator}` not found before end of input"
  | unmatchedEnd name =>
    s!"ill-formed document: close tag `</{name}>` does not match any open tag"
  | unnamedDocumentType =>
    "ill-formed document: `<!DOCTYPE>` declaration does not contain a name of a document type"
  | unclosedReference =>
    "ill-formed document: entity or character reference not closed: " ++
      "`;` not found before end of input"

/-- Why a tag cannot be read.  Positions count bytes from the one after the opening bracket. -/
inductive TagFault
  | noEqualsSign (position : Nat)
  | noValue (position : Nat)
  | unquotedValue (position : Nat)
  | unclosedValue (position : Nat) (quote : Char)
  | duplicate (position previous : Nat)
  | encoding (fault : Text.Utf8Fault)
  /-- A reason stated in words. -/
  | stated (reason : String)
deriving DecidableEq, Repr

/-- A fault of an attribute with its place. -/
def attributeFault (position : Nat) (reason : String) : String :=
  s!"Attribute parsing failed: position {position}: {reason}"

def TagFault.message : TagFault → String
  | noEqualsSign position =>
    attributeFault position "attribute key must be directly followed by `=` or space"
  | noValue position =>
    attributeFault position "`=` must be followed by an attribute value"
  | unquotedValue position =>
    attributeFault position "attribute value must be enclosed in `\"` or `'`"
  | unclosedValue position quote =>
    attributeFault position s!"missing closing quote `{quote}` in attribute value"
  | duplicate position previous =>
    attributeFault position s!"duplicated attribute, previous declaration at position {previous}"
  | encoding fault => fault.message
  | stated reason => reason

/-- Why a number does not stand for a character. -/
inductive CharacterFault
  | sign
  | number (fault : Decimal.IntegerFault)
  | zero
  | codePoint (value : Nat)
deriving DecidableEq, Repr

def CharacterFault.message : CharacterFault → String
  | sign => "unexpected number sign"
  | number fault => fault.message
  | zero => "0x0 character is not permitted in XML"
  | codePoint value => s!"`{value}` is not a valid codepoint"

/-- Why character data stands for no text. -/
inductive ContentFault
  | text (fault : Text.Utf8Fault)
  | characterData (fault : Text.Utf8Fault)
  | reference (fault : Text.Utf8Fault)
  | character (fault : CharacterFault)
  | unknownEntity (name : String)
deriving DecidableEq, Repr

def ContentFault.message : ContentFault → String
  | text fault => s!"Invalid text content: cannot decode input using UTF-8: {fault.message}"
  | characterData fault => s!"CDATA is not valid UTF-8: {fault.message}"
  | reference fault =>
    s!"Invalid character reference: cannot decode input using UTF-8: {fault.message}"
  | character fault =>
    s!"Invalid character reference: invalid character reference: {fault.message}"
  | unknownEntity name => s!"Unknown entity reference &{name};"

end CityScene.Markup

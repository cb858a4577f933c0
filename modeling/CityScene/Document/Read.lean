import CityScene.Document.Event
import CityScene.Markup.Reference
import CityScene.Markup.Token

/-!
# Reading documents

`read` takes a document as bytes through its tokens and events to a model.  The first fault of
markup, of decoding or of nesting ends it.
-/

namespace CityScene.Document

open Markup

/-- Text decoded as UTF-8, or the error that `fault` makes of it. -/
def decodeContent (fault : Text.Utf8Fault → ContentFault) (bytes : List UInt8) :
    Except Error String :=
  (Text.decodeUtf8 bytes).mapError fun f => .content (fault f)

/-- The events of a token that ends at byte `stop`.  An element without content closes there. -/
def eventsOf (stop : Nat) : Token → Except Error (List Event)
  | .start content => do
    let tag ← (Tag.read content).mapError .tag
    return [.opened tag.name tag.attributes]
  | .empty content => do
    let tag ← (Tag.read content).mapError .tag
    return [.opened tag.name tag.attributes, .offset stop, .closed tag.name]
  | .close name => do return [.closed (← (Tag.decode name).mapError .tag)]
  | .text content => do return [.text (← decodeContent .text content)]
  | .reference name => do
    let c ← (resolveReference (← decodeContent .reference name)).mapError .content
    return [.text c.toString]
  | .characterData content => do return [.text (← decodeContent .characterData content)]
  | .skipped => return []

/-- How many elements are open after a token, if `opened` were before it. -/
def openedAfter (opened : Nat) : Token → Except Error Nat
  | .start _ => .ok (opened + 1)
  | .close name =>
    match opened with
    | 0 => .error (.markup (.unmatchedEnd ((Text.decodeUtf8 name).toOption.getD "")))
    | n + 1 => .ok n
  | _ => .ok opened

/-- Reads on from byte `offset`, where `opened` elements are open. -/
def readFrom (config : Config) (offset opened : Nat) (b : Builder) :
    List UInt8 → Except Error Builder
  | [] => .ok { b with offset := some offset }
  | first :: rest => do
    let (token, n) ← (Token.scan first rest).mapError .markup
    let opened ← openedAfter opened token
    let events ← eventsOf (offset + n + 1) token
    let b ← b.applyAll config (.offset offset :: events)
    readFrom config (offset + n + 1) opened b (rest.drop n)
termination_by bytes => bytes.length
decreasing_by
  simp only [List.length_cons, List.length_drop]
  omega

/-- The bytes after a mark that tells the encoding. -/
def withoutMark : List UInt8 → List UInt8
  | 0xEF :: 0xBB :: 0xBF :: rest => rest
  | bytes => bytes

/-- Reads a document. -/
def read (config : Config) (bytes : List UInt8) : Except Error Outcome := do
  let b ← readFrom config 0 0 (.start config) (withoutMark bytes)
  b.finish config

/-- Reads a document that is given as text. -/
def readText (config : Config) (text : String) : Except Error Outcome :=
  read config text.toUTF8.toList

end CityScene.Document

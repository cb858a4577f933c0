import CityScene.Markup.Fault

/-!
# Tokens of markup

`Token.scan` says what stands at the front of the remaining bytes and how far it reaches.  What a
token contains is still bytes; comments, processing instructions and document types are recognised
only to be passed over.
-/

namespace CityScene.Markup

/-- The byte of an ASCII character. -/
def byte (c : Char) : UInt8 :=
  c.toUInt8

/-- The bytes of an ASCII text. -/
def ascii (s : String) : List UInt8 :=
  s.toList.map byte

/-- Blanks of markup: space, tab, carriage return and line feed. -/
def isSpace (b : UInt8) : Bool :=
  b == byte ' ' || b == byte '\t' || b == byte '\r' || b == byte '\n'

inductive Token
  /-- A start tag, between its brackets. -/
  | start (content : List UInt8)
  /-- A tag of an element without content, up to its slash. -/
  | empty (content : List UInt8)
  /-- The name in an end tag. -/
  | close (name : List UInt8)
  | text (content : List UInt8)
  /-- A character or entity reference, between the ampersand and the semicolon. -/
  | reference (name : List UInt8)
  | characterData (content : List UInt8)
  /-- Markup that carries no content. -/
  | skipped
deriving DecidableEq, Repr

namespace Token

/-- How many bytes stand before the first occurrence of `pattern`. -/
def findPattern? (pattern : List UInt8) : List UInt8 → Option Nat
  | [] => if pattern.isEmpty then some 0 else none
  | b :: rest =>
    if pattern.isPrefixOf (b :: rest) then some 0 else (findPattern? pattern rest).map (· + 1)

/-- How many bytes stand before the first closing bracket outside quotes.  Without one, `unclosed`
tells what is left open: the quote, if one is, else the construct itself. -/
def findBracket (unclosed : Option UInt8 → Fault) (quote : Option UInt8) :
    List UInt8 → Except Fault Nat
  | [] => .error (unclosed quote)
  | b :: rest =>
    match quote with
    | some q => (findBracket unclosed (if b == q then none else some q) rest).map (· + 1)
    | none =>
      if b == byte '>' then .ok 0
      else
        let isQuote := b == byte '\'' || b == byte '"'
        (findBracket unclosed (if isQuote then some b else none) rest).map (· + 1)

/-- What is left open when a tag does not end. -/
def unclosedTag : Option UInt8 → Fault
  | some q => .unclosed (.attributeValue (Char.ofUInt8 q))
  | none => .unclosed .tag

/-- Drops the blanks at the end, unless there is nothing else. -/
def trimEnd (bytes : List UInt8) : List UInt8 :=
  if bytes.all isSpace then bytes else (bytes.reverse.dropWhile isSpace).reverse

/-- The tag between its brackets. -/
def ofTag (content : List UInt8) : Token :=
  if content.getLast? == some (byte '/') then empty content.dropLast else start content

/-! ## Document types -/

/-- The bytes that the front of an internal subset takes: up to the end of a comment, of a
processing instruction or of a declaration with quotes, or else one byte. -/
def subsetStep (bytes : List UInt8) : Except Fault Nat :=
  let unclosed := Fault.unclosed .documentType
  let upTo (pattern : String) (skipped : Nat) : Except Fault Nat :=
    match findPattern? (ascii pattern) (bytes.drop skipped) with
    | some n => .ok (skipped + n + pattern.length)
    | none => .error unclosed
  if (ascii "<!--").isPrefixOf bytes then upTo "-->" 4
  else if (ascii "<?").isPrefixOf bytes then upTo "?>" 2
  else if ["<!ENTITY", "<!ATTLIST", "<!NOTATION"].any fun s => (ascii s).isPrefixOf bytes then
    (findBracket (fun _ => unclosed) none bytes).map (· + 1)
  else .ok 1

/-- The bytes from inside an internal subset to the bracket that closes the document type. -/
def subsetLength : List UInt8 → Except Fault Nat
  | [] => .error (.unclosed .documentType)
  | b :: rest =>
    if b == byte ']' then
      match findPattern? (ascii ">") rest with
      | some n => .ok (n + 2)
      | none => .error (.unclosed .documentType)
    else do
      let n ← subsetStep (b :: rest)
      let m ← subsetLength (rest.drop (n - 1))
      return n + m
termination_by bytes => bytes.length
decreasing_by
  simp only [List.length_cons, List.length_drop]
  omega

/-- The bytes of a document type up to and with its closing bracket, outside an internal subset. -/
def documentTypeLength (quote : Option UInt8) : List UInt8 → Except Fault Nat
  | [] => .error (.unclosed .documentType)
  | b :: rest =>
    match quote with
    | some q => (documentTypeLength (if b == q then none else some q) rest).map (· + 1)
    | none =>
      if b == byte '>' then .ok 1
      else if b == byte '[' then (subsetLength rest).map (· + 1)
      else
        let isQuote := b == byte '\'' || b == byte '"'
        (documentTypeLength (if isQuote then some b else none) rest).map (· + 1)

/-- Lower-case ASCII letters. -/
def lower (b : UInt8) : UInt8 :=
  if byte 'A' ≤ b && b ≤ byte 'Z' then b + 32 else b

/-- A document type, from the byte after `<!` on. -/
def scanDocumentType (bytes : List UInt8) : Except Fault (Token × Nat) := do
  let n ← documentTypeLength none bytes
  if ascii "doctype" != (bytes.take 7).map lower then throw (.unclosed .documentType)
  if ((bytes.take (n - 1)).drop 7).all isSpace then throw .unnamedDocumentType
  return (skipped, n)

/-! ## The front of the input -/

/-- Markup after `<!`, with the number of its bytes. -/
def scanDeclaration (bytes : List UInt8) : Except Fault (Token × Nat) :=
  match bytes with
  | [] => .error .unknownMarkup
  | b :: _ =>
    if b == byte '[' then
      let opening := "[CDATA["
      let content := bytes.drop opening.length
      match (ascii opening).isPrefixOf bytes, findPattern? (ascii "]]>") content with
      | true, some n => .ok (characterData (content.take n), opening.length + n + 3)
      | _, _ => .error (.unclosed .characterData)
    else if b == byte '-' then
      match (ascii "--").isPrefixOf bytes, findPattern? (ascii "-->") (bytes.drop 2) with
      | true, some n => .ok (skipped, 2 + n + 3)
      | _, _ => .error (.unclosed .comment)
    else if lower b == byte 'd' then scanDocumentType bytes
    else .error .unknownMarkup

/-- What a processing instruction that does not end is called, by the bytes after `<?`. -/
def unclosedInstruction (bytes : List UInt8) : Fault :=
  let ends := match bytes.drop 3 with
    | [] => true
    | b :: _ => isSpace b || b == byte '?'
  let isDeclaration := (ascii "xml").isPrefixOf bytes && ends
  .unclosed (if isDeclaration then .declaration else .processingInstruction)

/-- A processing instruction, from the byte after `<?` on.  The question mark that opens it does
not also close it. -/
def scanInstruction (bytes : List UInt8) : Except Fault (Token × Nat) :=
  match bytes.head? == some (byte '>'), findPattern? (ascii "?>") bytes with
  | false, some n => .ok (skipped, n + 2)
  | _, _ => .error (unclosedInstruction bytes)

/-- Markup after its opening bracket, with the number of its bytes. -/
def scanMarkup (bytes : List UInt8) : Except Fault (Token × Nat) :=
  match bytes with
  | [] => .error (.unclosed .tag)
  | b :: rest =>
    if b == byte '!' then (scanDeclaration rest).map fun (t, n) => (t, n + 1)
    else if b == byte '?' then (scanInstruction rest).map fun (t, n) => (t, n + 1)
    else if b == byte '/' then
      (findBracket unclosedTag none rest).map fun n => (close (trimEnd (rest.take n)), n + 2)
    else (findBracket unclosedTag none bytes).map fun n => (ofTag (bytes.take n), n + 1)

def startsMarkup (b : UInt8) : Bool :=
  b == byte '<' || b == byte '&'

/-- The token that starts with byte `b`, and how many bytes it takes of those that follow. -/
def scan (b : UInt8) (rest : List UInt8) : Except Fault (Token × Nat) :=
  if b == byte '<' then scanMarkup rest
  else if b == byte '&' then
    let name := rest.takeWhile fun c => !(startsMarkup c || c == byte ';')
    if rest[name.length]? == some (byte ';') then .ok (reference name, name.length + 1)
    else .error .unclosedReference
  else
    let more := rest.takeWhile (!startsMarkup ·)
    .ok (text (b :: more), more.length)

end Token

end CityScene.Markup

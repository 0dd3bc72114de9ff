import DataImage.Json.Token

/-!
# JSON values

The values that documents are written in, and how a text is read as one. An object is the list of
its members in the order of the text, repeated names included, because it depends on the reader of
a record whether a repetition is an error.

* `Json.ofText?` reads a text that holds a single value, with arrays and objects nested at most
  `Json.maxDepth` deep.
-/

namespace DataImage

/-- A value of a document. -/
inductive Json where
  | null
  | bool (value : Bool)
  | number (value : Json.Number)
  | text (value : String)
  | array (elements : List Json)
  | object (members : List (String × Json))
deriving Repr, Inhabited

namespace Json

/-- Items with commas between them, up to a closing token, at most `count` of them. -/
def itemsWithin? {α : Type} (item : List Token → Option (α × List Token)) (close : Token) :
    (count : Nat) → List Token → Option (List α × List Token)
  | 0, _ => none
  | count + 1, tokens => do
    let (first, tokens) ← item tokens
    match tokens with
    | [] => none
    | token :: rest =>
      if token = close then return ([first], rest)
      else do
        guard (token = .comma)
        let (others, rest) ← itemsWithin? item close count rest
        return (first :: others, rest)

/-- The items of an array or an object whose opening token has been read. -/
def items? {α : Type} (item : List Token → Option (α × List Token)) (close : Token)
    (tokens : List Token) : Option (List α × List Token) :=
  match tokens with
  | [] => none
  | token :: rest =>
    if token = close then some ([], rest) else itemsWithin? item close tokens.length tokens

/-- A member of an object, given how values are read. -/
def member? (value : List Token → Option (Json × List Token)) :
    List Token → Option ((String × Json) × List Token)
  | .text name :: .colon :: tokens => do
    let (v, tokens) ← value tokens
    return ((name, v), tokens)
  | _ => none

/-- The value at the front, with arrays and objects nested at most `depth` deep, and what follows
it. -/
def valueWithin? : (depth : Nat) → List Token → Option (Json × List Token)
  | _, .null :: tokens => some (.null, tokens)
  | _, .bool value :: tokens => some (.bool value, tokens)
  | _, .number value :: tokens => some (.number value, tokens)
  | _, .text value :: tokens => some (.text value, tokens)
  | depth + 1, .beginArray :: tokens => do
    let (elements, tokens) ← items? (valueWithin? depth) .endArray tokens
    return (.array elements, tokens)
  | depth + 1, .beginObject :: tokens => do
    let (members, tokens) ← items? (member? (valueWithin? depth)) .endObject tokens
    return (.object members, tokens)
  | _, _ => none

/-- How deep arrays and objects may nest. -/
def maxDepth : Nat := 127

/-- The value that a text holds. -/
def ofText? (text : String) : Option Json := do
  let (value, rest) ← valueWithin? maxDepth (← Token.scan? text)
  guard rest.isEmpty
  return value

end Json

end DataImage

import PspBoot.Json.Token
import PspBoot.Text.Hex

/-!
# JSON values

A value is read from its tokens by going through them once, with a stack of the arrays and
objects that have been opened and not yet closed.  The nesting of a text is limited.  Members of
an object are kept as written; where a key is repeated, its last member counts.

Values are written compactly, without blanks.
-/

namespace PspBoot.Json

/-- A JSON value. -/
inductive Value where
  | null
  | boolean (value : Bool)
  | number (value : Number)
  | string (text : List Char)
  | array (items : List Value)
  | object (members : List (List Char × Value))
deriving Repr, Inhabited

namespace Value

/-- The member of an object with the given key; null if there is none, or no object. -/
def member (value : Value) (key : String) : Value :=
  match value with
  | .object members =>
      match members.reverse.find? (·.1 = key.toList) with
      | some (_, found) => found
      | none => .null
  | _ => .null

/-- The text of a string. -/
def text? : Value → Option (List Char)
  | .string text => some text
  | _ => none

/-- The value of a number that was written as a natural one. -/
def natural? : Value → Option Nat
  | .number literal => literal.natural?
  | _ => none

/-- The items of an array. -/
def items? : Value → Option (List Value)
  | .array items => some items
  | _ => none

/-! ### Reading -/

/-- An array or object that has been opened; what it holds so far stands in reverse. -/
inductive Frame where
  | array (items : List Value)
  | object (members : List (List Char × Value))
  /-- An object whose next member has its key but not yet its value. -/
  | keyed (members : List (List Char × Value)) (key : List Char)
deriving Repr, Inhabited

/-- What may come next. -/
inductive Expectation where
  | value
  /-- A value, or the end of the array just opened. -/
  | item
  | key
  /-- A key, or the end of the object just opened. -/
  | firstKey
  | colon (key : List Char)
  /-- The given value is complete; a separator, an end, or the end of the text follows. -/
  | following (value : Value)
deriving Repr, Inhabited

/-- The number of arrays and objects that may be open at a time. -/
def maxDepth : Nat := 127

/-- What may come behind the beginning of a value. -/
def beginValue (frames : List Frame) : Token → Option (Expectation × List Frame)
  | .null => some (.following .null, frames)
  | .boolean value => some (.following (.boolean value), frames)
  | .number value => some (.following (.number value), frames)
  | .string text => some (.following (.string text), frames)
  | .openArray => if frames.length < maxDepth then some (.item, .array [] :: frames) else none
  | .openObject =>
      if frames.length < maxDepth then some (.firstKey, .object [] :: frames) else none
  | _ => none

/-- What may come behind a token, given what was expected. -/
def advance : Expectation × List Frame → Token → Option (Expectation × List Frame)
  | (.item, .array _ :: frames), .closeArray => some (.following (.array []), frames)
  | (.item, frames), token => beginValue frames token
  | (.value, frames), token => beginValue frames token
  | (.firstKey, .object _ :: frames), .closeObject => some (.following (.object []), frames)
  | (.firstKey, frames), .string key => some (.colon key, frames)
  | (.key, frames), .string key => some (.colon key, frames)
  | (.colon key, .object members :: frames), .colon =>
      some (.value, .keyed members key :: frames)
  | (.following value, .array items :: frames), .comma =>
      some (.value, .array (value :: items) :: frames)
  | (.following value, .array items :: frames), .closeArray =>
      some (.following (.array (value :: items).reverse), frames)
  | (.following value, .keyed members key :: frames), .comma =>
      some (.key, .object ((key, value) :: members) :: frames)
  | (.following value, .keyed members key :: frames), .closeObject =>
      some (.following (.object ((key, value) :: members).reverse), frames)
  | _, _ => none

/-- The value that the tokens spell, if they spell exactly one. -/
def ofTokens? (tokens : List Token) : Option Value :=
  match tokens.foldlM advance (.value, []) with
  | some (.following value, []) => some value
  | _ => none

/-- The value of a JSON text. -/
def parse? (text : List Char) : Option Value :=
  (Token.scan text).bind ofTokens?

/-! ### Writing -/

/-- How one character of a string is written. -/
def escape (c : Char) : List Char :=
  if c = '"' then ['\\', '"']
  else if c = '\\' then ['\\', '\\']
  else if c = '\x08' then ['\\', 'b']
  else if c = '\t' then ['\\', 't']
  else if c = '\n' then ['\\', 'n']
  else if c = '\x0c' then ['\\', 'f']
  else if c = '\r' then ['\\', 'r']
  else if c.toNat < 0x20 then '\\' :: 'u' :: Text.Hex.padded 4 c.toNat
  else [c]

/-- A string in quotes. -/
def renderString (text : List Char) : List Char :=
  '"' :: text.flatMap escape ++ ['"']

mutual

/-- The compact text of a value. -/
def render : Value → List Char
  | .null => "null".toList
  | .boolean true => "true".toList
  | .boolean false => "false".toList
  | .number literal => literal.render
  | .string text => renderString text
  | .array items => '[' :: renderItems items ++ [']']
  | .object members => Char.ofNat 0x7B :: renderMembers members ++ [Char.ofNat 0x7D]

/-- The texts of the items, separated by commas. -/
def renderItems : List Value → List Char
  | [] => []
  | [item] => render item
  | item :: items => render item ++ ',' :: renderItems items

/-- The texts of the members, separated by commas. -/
def renderMembers : List (List Char × Value) → List Char
  | [] => []
  | [(key, value)] => renderString key ++ ':' :: render value
  | (key, value) :: members =>
      renderString key ++ ':' :: render value ++ ',' :: renderMembers members

end

end Value

end PspBoot.Json

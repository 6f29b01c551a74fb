-- JSON values and the two ways of laying them out: on one line without blanks,
-- or with every item on a line of its own.
import SelectQuery.Json.Text

namespace SelectQuery

/-- A JSON value of the kinds that trees are made of. -/
inductive Json where
  | number (value : Int)
  | string (value : String)
  | array (items : List Json)
  /-- An object, with its fields in the order in which they are written. -/
  | object (fields : List (String × Json))
  deriving Repr

namespace Json

/-! ## Layouts -/

/-- Where blanks stand in a written value. -/
structure Layout where
  /-- What stands before an item, or before a closing bracket, at a depth. -/
  lineBreak : Nat → String
  /-- What stands between a key and its value. -/
  colon : String

/-- Everything on one line, without blanks. -/
def Layout.compact : Layout :=
  { lineBreak := fun _ => "", colon := ":" }

/-- Every item on a line of its own, two spaces further in at each depth. -/
def Layout.indented : Layout :=
  { lineBreak := fun depth => "\n" ++ "".pushn ' ' (2 * depth), colon := ": " }

/-- Items between two brackets at a depth; nothing stands between the brackets
of an empty list. -/
def Layout.bracketed (layout : Layout) (depth : Nat) (opening closing : String) :
    List String → String
  | [] => opening ++ closing
  | items =>
    let lineBreak := layout.lineBreak (depth + 1)
    opening ++ lineBreak ++ ("," ++ lineBreak).intercalate items
      ++ layout.lineBreak depth ++ closing

/-! ## Writing -/

mutual

/-- A value as text; its own brackets stand at `depth`. -/
def write (layout : Layout) (depth : Nat) : Json → String
  | number n => toString n
  | string s => quotedText s
  | array items => layout.bracketed depth "[" "]" (writeItems layout (depth + 1) items)
  | object fields => layout.bracketed depth "\x7b" "\x7d" (writeFields layout (depth + 1) fields)

/-- The items of an array, each as text. -/
def writeItems (layout : Layout) (depth : Nat) : List Json → List String
  | [] => []
  | item :: items => item.write layout depth :: writeItems layout depth items

/-- The fields of an object, each as text. -/
def writeFields (layout : Layout) (depth : Nat) : List (String × Json) → List String
  | [] => []
  | (key, value) :: fields =>
    (quotedText key ++ layout.colon ++ value.write layout depth)
      :: writeFields layout depth fields

end

/-- The text on one line. -/
def compact (json : Json) : String :=
  json.write .compact 0

/-- The text with every item on a line of its own. -/
def indented (json : Json) : String :=
  json.write .indented 0

end Json

end SelectQuery

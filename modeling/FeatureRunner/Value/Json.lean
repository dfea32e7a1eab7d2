import FeatureRunner.Value.Display

/-!
Values written as JSON: on one line, as dispatch lines show arguments, and indented, as reports
hold results.
-/

namespace FeatureRunner
open FeatureRunner.Text FeatureRunner.Number

/-- Numbers in JSON texts are spelled like those in messages, but for the names of the special
ones. -/
def jsonNumberStyle : NumberStyle :=
  { plainStyle with notANumber := "NaN", infinite := "Infinity" }

/-- How many digits of a whole number are written at most. -/
def digitBound : Nat := 4300

/-- How JSON texts are laid out and which characters they write out. -/
structure JsonStyle where
  /-- Characters beyond ASCII become escapes. -/
  asciiOnly : Bool
  /-- Values without a JSON form are written as the text of their display. -/
  displayOthers : Bool
  /-- Spaces per level, or everything on one line. -/
  indent : Option Nat

/-- The arguments of a dispatch. -/
def dispatchJson : JsonStyle := ⟨false, true, none⟩

/-- The results in a report. -/
def reportJson : JsonStyle := ⟨true, false, some 2⟩

/-- One UTF-16 unit as an escape. -/
def unitEscape (unit : Nat) : List Char :=
  '\\' :: 'u' :: hexDigits 4 unit

/-- A character as escapes, two beyond the first plane. -/
def charEscape (c : Char) : List Char :=
  if c.toNat < 0x10000 then unitEscape c.toNat
  else
    let beyond := c.toNat - 0x10000
    unitEscape (0xD800 + beyond / 0x400) ++ unitEscape (0xDC00 + beyond % 0x400)

/-- How a character is written inside a JSON text. -/
def jsonChar (asciiOnly : Bool) (c : Char) : List Char :=
  if c == '"' || c == '\\' then ['\\', c]
  else if c == '\n' then ['\\', 'n']
  else if c == '\r' then ['\\', 'r']
  else if c == '\t' then ['\\', 't']
  else if c.toNat == 8 then ['\\', 'b']
  else if c.toNat == 12 then ['\\', 'f']
  else if c.toNat < 32 then unitEscape c.toNat
  else if asciiOnly && 127 ≤ c.toNat then charEscape c
  else [c]

def jsonText (asciiOnly : Bool) (value : String) : String :=
  String.ofList ('"' :: value.toList.flatMap (jsonChar asciiOnly) ++ ['"'])

def jsonInt? (value : Int) : Except Fault String :=
  if Nat.pow 10 digitBound ≤ value.natAbs then .error .tooLongToWrite else .ok (toString value)

namespace JsonStyle

/-- The pieces of a list or mapping between its brackets, at a depth of nesting. -/
def enclose (style : JsonStyle) (opening closing : String) (depth : Nat) (parts : List String) :
    String :=
  if parts.isEmpty then opening ++ closing
  else match style.indent with
    | none => opening ++ ", ".intercalate parts ++ closing
    | some width =>
      let margin := fun level => "\n" ++ String.ofList (List.replicate (width * level) ' ')
      opening ++ margin (depth + 1) ++ ("," ++ margin (depth + 1)).intercalate parts ++
        margin depth ++ closing

/-- The text under which a key of a mapping is written. -/
def key? : Value → Except Fault String
  | .text value => .ok value
  | .null => .ok "null"
  | .bool value => .ok (if value then "true" else "false")
  | .int value => jsonInt? value
  | .float value => .ok (value.textIn jsonNumberStyle)
  | key => .error
    (.misuse ("keys must be str, int, float, bool or None, not " ++ key.typeName))

mutual

/-- A value in the style, at a depth of nesting. -/
def write (style : JsonStyle) (depth : Nat) : Value → Except Fault String
  | .null => .ok "null"
  | .bool value => .ok (if value then "true" else "false")
  | .int value => jsonInt? value
  | .float value => .ok (value.textIn jsonNumberStyle)
  | .text value => .ok (jsonText style.asciiOnly value)
  | .list items => do return style.enclose "[" "]" depth (← writeList style (depth + 1) items)
  | .tuple items => do return style.enclose "[" "]" depth (← writeList style (depth + 1) items)
  | .dict entries => do
    return style.enclose "\x7b" "\x7d" depth (← writeEntries style (depth + 1) entries)
  | value =>
    if style.displayOthers then .ok (jsonText style.asciiOnly value.display)
    else .error (.misuse ("Object of type " ++ value.typeName ++ " is not JSON serializable"))

def writeList (style : JsonStyle) (depth : Nat) : List Value → Except Fault (List String)
  | [] => .ok []
  | value :: rest => do
    let first ← write style depth value
    return first :: (← writeList style depth rest)

def writeEntries (style : JsonStyle) (depth : Nat) :
    List (Value × Value) → Except Fault (List String)
  | [] => .ok []
  | (key, value) :: rest => do
    let name ← key? key
    let first ← write style depth value
    return (jsonText style.asciiOnly name ++ ": " ++ first) :: (← writeEntries style depth rest)

end

end JsonStyle

/-- The text of a list of arguments in a dispatch line. -/
def humanizeArgs (args : List Value) : Except Fault String :=
  return ", ".intercalate (← args.mapM (dispatchJson.write 0))

end FeatureRunner

import FeatureRunner.Document.Yaml.Scalar
import FeatureRunner.Value.Keyed

/-!
Reading YAML documents: block and flow collections, plain and quoted scalars, comments and document
marks. A collection in block form is laid out by columns: the entries of one collection begin at
one column, and what belongs to an entry begins further to the right.
-/

namespace FeatureRunner.Yaml
open FeatureRunner.Text

/-- The rest of a document and the column at which it begins. -/
structure Cursor where
  rest : List Char
  column : Nat

namespace Cursor

/-- The cursor behind the next character. -/
def next (cursor : Cursor) : Cursor :=
  match cursor.rest with
  | [] => cursor
  | '\n' :: rest => ⟨rest, 0⟩
  | _ :: rest => ⟨rest, cursor.column + 1⟩

def forward : Nat → Cursor → Cursor
  | 0, cursor => cursor
  | count + 1, cursor => forward count cursor.next

/-- Whether a text is at its end or goes on with white space. -/
def isBreak : List Char → Bool
  | [] => true
  | c :: _ => c == ' ' || c == '\t' || c == '\n'

/-- Whether a mark that begins or ends a document stands here. -/
def atMark (cursor : Cursor) : Bool :=
  cursor.column == 0 && match cursor.rest with
    | '-' :: '-' :: '-' :: rest => isBreak rest
    | '.' :: '.' :: '.' :: rest => isBreak rest
    | _ => false

/-- Whether the document is over. -/
def atEnd (cursor : Cursor) : Bool :=
  cursor.rest.isEmpty || cursor.atMark

/-- Whether an entry of a block sequence begins here. -/
def atDash (cursor : Cursor) : Bool :=
  match cursor.rest with
  | '-' :: rest => isBreak rest
  | _ => false

/-- Whether the value of a key follows. Inside flow collections a bracket or a comma may follow the
colon. -/
def atColon (inFlow : Bool) (cursor : Cursor) : Bool :=
  match cursor.rest with
  | ':' :: rest => isBreak rest || (inFlow && (rest.head?.any [',', '[', ']', '\x7b', '\x7d'].contains))
  | _ => false

def skipSpaces (cursor : Cursor) : Cursor :=
  forward (cursor.rest.takeWhile (· == ' ')).length cursor

/-- The next token, and whether a line ends before it. -/
def skipWithin : Nat → Bool → Cursor → Cursor × Bool
  | 0, crossed, cursor => (cursor, crossed)
  | fuel + 1, crossed, cursor =>
    match cursor.rest with
    | ' ' :: _ => skipWithin fuel crossed cursor.next
    | '\n' :: _ => skipWithin fuel true cursor.next
    | '#' :: rest =>
      skipWithin fuel crossed (forward ((rest.takeWhile (· != '\n')).length + 1) cursor)
    | _ => (cursor, crossed)

def skip (cursor : Cursor) : Cursor × Bool :=
  skipWithin (cursor.rest.length + 1) false cursor

end Cursor

/-- What lines that were crossed inside a scalar leave in its text: a space for one, and a line
feed for each further one. -/
def fold (spaces : List Char) : Nat → List Char
  | 0 => spaces
  | 1 => [' ']
  | count + 1 => List.replicate count '\n'

/-- Skips white space inside a scalar: the spaces since the last line end, the number of line ends,
and the cursor behind them. -/
def skipFolded : Nat → List Char → Nat → Cursor → List Char × Nat × Cursor
  | 0, spaces, lines, cursor => (spaces, lines, cursor)
  | fuel + 1, spaces, lines, cursor =>
    match cursor.rest with
    | ' ' :: _ => skipFolded fuel (spaces ++ [' ']) lines cursor.next
    | '\n' :: _ => skipFolded fuel [] (lines + 1) cursor.next
    | _ => (spaces, lines, cursor)

/-- Whether a plain scalar can begin here. -/
def startsPlain (inFlow : Bool) (text : List Char) : Bool :=
  match text with
  | [] => false
  | c :: rest =>
    if ['-', '?', ':'].contains c then
      !Cursor.isBreak rest && (c == '-' || !inFlow)
    else !(" \t\n,[]\x7b\x7d#&*!|>'\"%@".toList.contains c) && c.toNat != 0x60

/-- How long the run of a plain scalar is that holds no white space. -/
def plainRun (inFlow : Bool) : List Char → Nat
  | [] => 0
  | c :: rest =>
    if c == ' ' || c == '\t' || c == '\n' then 0
    else if Cursor.atColon inFlow ⟨c :: rest, 0⟩ then 0
    else if inFlow && [',', '?', '[', ']', '\x7b', '\x7d'].contains c then 0
    else plainRun inFlow rest + 1

/-- A scalar with the cursor behind it and whether it goes on over a line end. -/
structure ScalarRead where
  text : List Char
  cursor : Cursor
  crossed : Bool

/-- Reads a plain scalar whose later lines begin at column `least` or further right. -/
def readPlain (inFlow : Bool) (least : Nat) : Nat → List Char → List Char → Bool → Cursor → ScalarRead
  | 0, text, _, crossed, cursor => ⟨text, cursor, crossed⟩
  | fuel + 1, text, between, crossed, cursor =>
    let length := plainRun inFlow cursor.rest
    if length == 0 || cursor.rest.head? == some '#' then ⟨text, cursor, crossed⟩
    else
      let text := text ++ between ++ cursor.rest.take length
      let (spaces, lines, after) :=
        skipFolded cursor.rest.length [] 0 (cursor.forward length)
      let crossed := crossed || lines != 0
      let ends := (spaces.isEmpty && lines == 0) || (lines != 0 && after.atMark) ||
        (!inFlow && after.column < least)
      if ends then ⟨text, after, crossed⟩
      else readPlain inFlow least fuel text (fold spaces lines) crossed after

/-- Reads the text of single quotes, in which a quote is written twice. -/
def readSingle : Nat → List Char → Bool → Cursor → Except Fault ScalarRead
  | 0, _, _, _ => .error .malformedYaml
  | fuel + 1, text, crossed, cursor =>
    match cursor.rest with
    | '\'' :: '\'' :: _ => readSingle fuel (text ++ ['\'']) crossed (cursor.forward 2)
    | '\'' :: _ => .ok ⟨text, cursor.next, crossed⟩
    | [] => .error .malformedYaml
    | c :: _ =>
      if c == ' ' || c == '\n' then
        let (spaces, lines, after) := skipFolded cursor.rest.length [] 0 cursor
        if lines != 0 && after.atMark then .error .malformedYaml
        else readSingle fuel (text ++ fold spaces lines) (crossed || lines != 0) after
      else readSingle fuel (text ++ [c]) crossed cursor.next

/-- The character that an escaped letter stands for. -/
def escape? : Char → Option Char
  | '0' => some (Char.ofNat 0)
  | 'a' => some (Char.ofNat 7)
  | 'b' => some (Char.ofNat 8)
  | 't' => some '\t'
  | '\t' => some '\t'
  | 'n' => some '\n'
  | 'v' => some (Char.ofNat 11)
  | 'f' => some (Char.ofNat 12)
  | 'r' => some '\r'
  | 'e' => some (Char.ofNat 27)
  | ' ' => some ' '
  | '"' => some '"'
  | '/' => some '/'
  | '\\' => some '\\'
  | 'N' => some (Char.ofNat 0x85)
  | '_' => some (Char.ofNat 0xA0)
  | 'L' => some (Char.ofNat 0x2028)
  | 'P' => some (Char.ofNat 0x2029)
  | _ => none

/-- How many hexadecimal digits follow an escaped letter. -/
def escapeDigits? : Char → Option Nat
  | 'x' => some 2
  | 'u' => some 4
  | 'U' => some 8
  | _ => none

def isHexDigit (c : Char) : Bool :=
  (hexValue c.toUpper).isSome

/-- Reads the text of double quotes, in which a backslash begins an escape. -/
def readDouble : Nat → List Char → Bool → Cursor → Except Fault ScalarRead
  | 0, _, _, _ => .error .malformedYaml
  | fuel + 1, text, crossed, cursor =>
    match cursor.rest with
    | '"' :: _ => .ok ⟨text, cursor.next, crossed⟩
    | '\\' :: '\n' :: _ =>
      let (_, lines, after) := skipFolded cursor.rest.length [] 0 cursor.next
      readDouble fuel (text ++ List.replicate (lines - 1) '\n') true after
    | '\\' :: c :: rest =>
      match escape? c, escapeDigits? c with
      | some escaped, _ => readDouble fuel (text ++ [escaped]) crossed (cursor.forward 2)
      | none, some count =>
        let digits := rest.take count
        let point := baseValue 16 digits
        if digits.length == count && digits.all isHexDigit && point.isValidChar then
          readDouble fuel (text ++ [Char.ofNat point]) crossed (cursor.forward (count + 2))
        else .error .malformedYaml
      | none, none => .error .malformedYaml
    | [] => .error .malformedYaml
    | c :: _ =>
      if c == '\\' then .error .malformedYaml
      else if c == ' ' || c == '\n' then
        let (spaces, lines, after) := skipFolded cursor.rest.length [] 0 cursor
        if lines != 0 && after.atMark then .error .malformedYaml
        else readDouble fuel (text ++ fold spaces lines) (crossed || lines != 0) after
      else readDouble fuel (text ++ [c]) crossed cursor.next

/-- Reads a scalar of any style as a value. -/
def readScalar (inFlow : Bool) (least : Nat) (cursor : Cursor) :
    Except Fault (Value × Cursor × Bool) :=
  let fuel := cursor.rest.length + 1
  match cursor.rest with
  | '\'' :: _ => do
    let read ← readSingle fuel [] false cursor.next
    return (.text (String.ofList read.text), read.cursor, read.crossed)
  | '"' :: _ => do
    let read ← readDouble fuel [] false cursor.next
    return (.text (String.ofList read.text), read.cursor, read.crossed)
  | text =>
    if startsPlain inFlow text then do
      let read := readPlain inFlow least fuel [] [] false cursor
      return (← resolve read.text, read.cursor, read.crossed)
    else .error .malformedYaml

/-- Whether a value can be a key: collections cannot. -/
def isKey : Value → Bool
  | .list _ | .dict _ => false
  | _ => true

mutual

/-- Reads a flow collection or a scalar inside one. -/
def readFlow : Nat → Cursor → Except Fault (Value × Cursor)
  | 0, _ => .error .malformedYaml
  | fuel + 1, cursor =>
    if cursor.atEnd then .error .malformedYaml
    else match cursor.rest with
      | '[' :: _ => do
        let (items, after) ← readFlowItems fuel cursor.next
        return (.list items, after)
      | '\x7b' :: _ => do
        let (entries, after) ← readFlowEntries fuel cursor.next
        return (.dict (Value.keyedEntries entries), after)
      | _ => do
        let (value, after, _) ← readScalar true 0 cursor
        return (value, after)

/-- Reads what follows a key inside a flow collection: the value after a colon, or null. -/
def readFlowValue : Nat → Cursor → Except Fault (Value × Cursor)
  | 0, _ => .error .malformedYaml
  | fuel + 1, cursor =>
    let inner := (cursor.skip).1
    if inner.rest.head? == some ':' then
      let value := inner.next.skip.1
      match value.rest with
      | ',' :: _ | ']' :: _ | '\x7d' :: _ => .ok (.null, value)
      | _ => readFlow fuel value
    else .ok (.null, inner)

/-- Reads the items of a flow sequence up to its bracket. An item with a colon is a mapping of one
entry. -/
def readFlowItems : Nat → Cursor → Except Fault (List Value × Cursor)
  | 0, _ => .error .malformedYaml
  | fuel + 1, cursor =>
    let inner := cursor.skip.1
    match inner.rest with
    | ']' :: _ => .ok ([], inner.next)
    | _ => do
      let (first, after) ← readFlow fuel inner
      let after := after.skip.1
      let (item, after) ←
        if after.rest.head? == some ':' then
          if isKey first then do
            let (value, after) ← readFlowValue fuel after
            pure (Value.dict [(first, value)], after.skip.1)
          else .error .malformedYaml
        else pure (first, after)
      match after.rest with
      | ',' :: _ =>
        let (items, last) ← readFlowItems fuel after.next
        return (item :: items, last)
      | ']' :: _ => return ([item], after.next)
      | _ => .error .malformedYaml

/-- Reads the entries of a flow mapping up to its brace. -/
def readFlowEntries : Nat → Cursor → Except Fault (List (Value × Value) × Cursor)
  | 0, _ => .error .malformedYaml
  | fuel + 1, cursor =>
    let inner := cursor.skip.1
    match inner.rest with
    | '\x7d' :: _ => .ok ([], inner.next)
    | _ => do
      let (key, after) ← readFlow fuel inner
      if !isKey key then .error .malformedYaml
      else
        let (value, after) ← readFlowValue fuel after
        let after := after.skip.1
        match after.rest with
        | ',' :: _ =>
          let (entries, last) ← readFlowEntries fuel after.next
          return ((key, value) :: entries, last)
        | '\x7d' :: _ => return ([(key, value)], after.next)
        | _ => .error .malformedYaml

end

mutual

/-- Reads a node whose content begins at column `least` or further right. On the line of its key
(`inline`) it is no block collection; a sequence that is the value of a key may begin at the
column of the key (`dashes`). -/
def readBlock : Nat → Nat → Bool → Option Nat → Cursor → Except Fault (Value × Cursor)
  | 0, _, _, _, _ => .error .malformedYaml
  | fuel + 1, least, inline, dashes, cursor =>
    let (start, crossed) := cursor.skip
    let blockHere := !inline || crossed
    if start.atEnd then .ok (.null, start)
    else if start.column < least then
      if blockHere && start.atDash && dashes == some start.column then do
        let (items, after) ← readItems fuel start.column start
        return (.list items, after)
      else .ok (.null, start)
    else if start.atDash then
      if blockHere then do
        let (items, after) ← readItems fuel start.column start
        return (.list items, after)
      else .error .malformedYaml
    else match start.rest with
      | '[' :: _ | '\x7b' :: _ => do
        let (value, after) ← readFlow fuel start
        if after.skipSpaces.atColon false then .error .malformedYaml
        else return (value, after)
      | _ => do
        let (value, after, folded) ← readScalar false least start
        let after := after.skipSpaces
        if after.atColon false then
          if blockHere && !folded then
            let (entries, last) ← readEntries fuel start.column value after.next
            return (.dict (Value.keyedEntries entries), last)
          else .error .malformedYaml
        else return (value, after)

/-- Reads the items of a block sequence whose dashes stand at a column. -/
def readItems : Nat → Nat → Cursor → Except Fault (List Value × Cursor)
  | 0, _, _ => .error .malformedYaml
  | fuel + 1, column, cursor => do
    let (item, after) ← readBlock fuel (column + 1) false none cursor.next
    let after := after.skip.1
    if after.atEnd || after.column < column then return ([item], after)
    else if after.column == column then
      if after.atDash then
        let (items, last) ← readItems fuel column after
        return (item :: items, last)
      else return ([item], after)
    else .error .malformedYaml

/-- Reads the entries of a block mapping whose keys stand at a column, from behind the colon of a
key. -/
def readEntries : Nat → Nat → Value → Cursor → Except Fault (List (Value × Value) × Cursor)
  | 0, _, _, _ => .error .malformedYaml
  | fuel + 1, column, key, cursor => do
    let (value, after) ← readBlock fuel (column + 1) true (some column) cursor
    let after := after.skip.1
    if after.atEnd || after.column < column then return ([(key, value)], after)
    else if after.column == column && !after.atDash then
      let (nextKey, behind, folded) ← readScalar false (column + 1) after
      let behind := behind.skipSpaces
      if behind.atColon false && !folded then
        let (entries, last) ← readEntries fuel column nextKey behind.next
        return ((key, value) :: entries, last)
      else .error .malformedYaml
    else .error .malformedYaml

end

/-- Whether a character may stand in a document. -/
def isAllowed (c : Char) : Bool :=
  let point := c.toNat
  c == '\t' || c == '\n' || c == '\r' || (0x20 ≤ point && point ≤ 0x7E) || point == 0x85 ||
    (0xA0 ≤ point && point ≤ 0xFFFD) || 0x10000 ≤ point

/-- The text with every line end as one line feed. -/
def unifyLines : List Char → List Char
  | '\r' :: '\n' :: rest => '\n' :: unifyLines rest
  | '\r' :: rest => '\n' :: unifyLines rest
  | c :: rest => c :: unifyLines rest
  | [] => []

/-- Behind the mark that begins a document, if there is one. -/
def skipMark (cursor : Cursor) : Cursor :=
  let start := cursor.skip.1
  if start.atMark && start.rest.head? == some '-' then start.forward 3 else start

/-- Whether nothing follows a document but marks of its end. -/
def isOver (cursor : Cursor) : Bool :=
  let last := cursor.skip.1
  last.rest.isEmpty ||
    (last.atMark && last.rest.head? == some '.' && (last.forward 3).skip.1.rest.isEmpty)

/-- Reads the one document of a text. -/
def read (source : String) : Except Fault Value := do
  let text := unifyLines source.toList
  let text := if text.head? == some (Char.ofNat 0xFEFF) then text.tail else text
  if !text.all isAllowed then .error .malformedYaml
  else
    let (value, after) ← readBlock (4 * text.length + 16) 0 false none (skipMark ⟨text, 0⟩)
    if isOver after then return value else .error .malformedYaml

end FeatureRunner.Yaml

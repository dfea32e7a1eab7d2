import FeatureRunner.Text.Blank
import FeatureRunner.Text.Digit
import FeatureRunner.Text.LetterCase
import FeatureRunner.Text.Word

/-!
Regular expressions and how one matches a whole text: alternatives are tried from the left,
repetitions take as much as they can (or as little, if they are lazy), and the first way that
reaches the end of the text decides what the groups hold.
-/

namespace FeatureRunner
open FeatureRunner.Text

/-- The named classes of characters. -/
inductive CharKind
  | digit
  | word
  | blank
  deriving DecidableEq, Repr

def CharKind.holds : CharKind → Char → Bool
  | digit, c => isDecimalDigit c
  | word, c => isWordCharacter c
  | blank, c => isBlank c

/-- One entry of a set of characters. -/
inductive CharItem
  | range (first last : Char)
  | named (kind : CharKind) (negated : Bool)
  deriving DecidableEq, Repr

/-- A regular expression. -/
inductive Regex
  /-- Matches the empty text. -/
  | empty
  | char (c : Char)
  /-- Matches any character but a line feed. -/
  | any
  | named (kind : CharKind) (negated : Bool)
  | set (negated : Bool) (items : List CharItem)
  /-- Matches the empty text at the start. -/
  | start
  /-- Matches the empty text at the end and before a line feed that ends the text. -/
  | finish
  | group (index : Nat) (body : Regex)
  | seq (first second : Regex)
  | alt (first second : Regex)
  | loop (greedy : Bool) (least : Nat) (most : Option Nat) (body : Regex)
  deriving DecidableEq, Repr

namespace Regex

/-- A place in the text: how many characters lie before it, those after it, and what the groups
hold so far, the latest first. -/
structure Cursor where
  position : Nat
  rest : List Char
  captures : List (Nat × List Char)

/-- The texts of the groups at the end of a match. -/
abbrev Captures := List (Nat × List Char)

/-- Matches from a place and goes on with what comes next. -/
abbrev Matcher := Cursor → (Cursor → Option Captures) → Option Captures

/-- Whether a character is one of an entry's. -/
def itemHolds (ignoreCase : Bool) (c : Char) : CharItem → Bool
  | .range first last =>
    if ignoreCase then (letterVariants c).any fun other => first ≤ other && other ≤ last
    else first ≤ c && c ≤ last
  | .named kind negated => kind.holds (if ignoreCase then toLowerChar c else c) != negated

def setHolds (ignoreCase negated : Bool) (items : List CharItem) (c : Char) : Bool :=
  items.any (itemHolds ignoreCase c) != negated

/-- Matches one character. -/
def one (accepts : Char → Bool) : Matcher := fun cursor next =>
  match cursor.rest with
  | [] => none
  | c :: rest =>
    if accepts c then next { cursor with position := cursor.position + 1, rest } else none

/-- Matches `body` again and again. After `least` rounds a further round begins only at another
place than the one before it, so a body that matches the empty text ends the repetition. -/
def iterate (greedy : Bool) (least : Nat) (most : Option Nat) (body : Matcher) :
    Nat → Nat → Option Nat → Matcher
  | 0, _, _ => fun _ _ => none
  | fuel + 1, count, last => fun cursor next =>
    let again := fun last => body cursor fun after =>
      iterate greedy least most body fuel (count + 1) last after next
    let further := most.all (count < ·) && last != some cursor.position
    if count < least then again last
    else if greedy then
      match if further then again (some cursor.position) else none with
      | some captures => some captures
      | none => next cursor
    else
      match next cursor with
      | some captures => some captures
      | none => if further then again (some cursor.position) else none

/-- Matches an expression from a place. -/
def matchFrom (ignoreCase : Bool) : Regex → Matcher
  | empty => fun cursor next => next cursor
  | char c => one fun d => if ignoreCase then (letterVariants d).contains c else d == c
  | any => one (· != '\n')
  | named kind negated => one fun c => itemHolds ignoreCase c (.named kind negated)
  | set negated items => one (setHolds ignoreCase negated items)
  | start => fun cursor next => if cursor.position == 0 then next cursor else none
  | finish => fun cursor next =>
    if cursor.rest.isEmpty || cursor.rest == ['\n'] then next cursor else none
  | group index body => fun cursor next =>
    matchFrom ignoreCase body cursor fun after =>
      let held := cursor.rest.take (after.position - cursor.position)
      next { after with captures := (index, held) :: after.captures }
  | seq first second => fun cursor next =>
    matchFrom ignoreCase first cursor fun middle => matchFrom ignoreCase second middle next
  | alt first second => fun cursor next =>
    match matchFrom ignoreCase first cursor next with
    | some captures => some captures
    | none => matchFrom ignoreCase second cursor next
  | loop greedy least most body => fun cursor next =>
    iterate greedy least most (matchFrom ignoreCase body) (least + cursor.rest.length + 2) 0 none
      cursor next

/-- The texts of the groups when the expression matches the whole text. -/
def fullMatch? (regex : Regex) (ignoreCase : Bool) (text : List Char) : Option Captures :=
  regex.matchFrom ignoreCase ⟨0, text, []⟩ fun cursor =>
    if cursor.rest.isEmpty then some cursor.captures else none

/-- What a group holds, if it took part in the match. -/
def Captures.get? (captures : Captures) (index : Nat) : Option (List Char) :=
  (captures.find? (·.1 == index)).map (·.2)

/-- What the groups 1 to `count` hold. -/
def Captures.groups (captures : Captures) (count : Nat) : List (Option (List Char)) :=
  (List.range count).map fun index => captures.get? (index + 1)

end Regex

end FeatureRunner

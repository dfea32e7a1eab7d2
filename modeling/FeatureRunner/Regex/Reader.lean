import FeatureRunner.Regex

/-!
Reading a regular expression from its text. Groups are numbered by their opening brackets.
-/

namespace FeatureRunner.Regex

/-- The class that an escaped letter names, and whether it is negated. -/
def shorthand? : Char → Option (CharKind × Bool)
  | 'd' => some (.digit, false)
  | 'D' => some (.digit, true)
  | 'w' => some (.word, false)
  | 'W' => some (.word, true)
  | 's' => some (.blank, false)
  | 'S' => some (.blank, true)
  | _ => none

/-- The character that an escaped character stands for. -/
def escapedChar : Char → Char
  | 'n' => '\n'
  | 't' => '\t'
  | 'r' => '\r'
  | 'f' => Char.ofNat 12
  | 'v' => Char.ofNat 11
  | 'a' => Char.ofNat 7
  | c => c

/-- One member of a set: a character or a named class. -/
def setMember? : List Char → Option ((Char ⊕ (CharKind × Bool)) × List Char)
  | [] => none
  | '\\' :: c :: rest =>
    match shorthand? c with
    | some found => some (.inr found, rest)
    | none => some (.inl (escapedChar c), rest)
  | '\\' :: [] => none
  | c :: rest => some (.inl c, rest)

/-- The entries of a set up to its closing bracket, which is an entry when it comes first. -/
def setItems? : Nat → Bool → List Char → Option (List CharItem × List Char)
  | 0, _, _ => none
  | fuel + 1, first, text =>
    match text with
    | ']' :: rest => if first then entry? fuel text else some ([], rest)
    | _ => entry? fuel text
where
  entry? (fuel : Nat) (text : List Char) : Option (List CharItem × List Char) := do
    let (member, rest) ← setMember? text
    match member with
    | .inr (kind, negated) =>
      let (items, rest) ← setItems? fuel false rest
      return (.named kind negated :: items, rest)
    | .inl low =>
      let single := do
        let (items, rest) ← setItems? fuel false rest
        return (CharItem.range low low :: items, rest)
      match rest with
      | '-' :: ']' :: _ => single
      | '-' :: more =>
        let (upper, rest) ← setMember? more
        match upper with
        | .inr _ => none
        | .inl high =>
          let (items, rest) ← setItems? fuel false rest
          return (.range low high :: items, rest)
      | _ => single

def takeNumber (text : List Char) : Option Nat × List Char :=
  let digits := text.takeWhile Char.isDigit
  ((String.ofList digits).toNat?, text.dropWhile Char.isDigit)

/-- Bounds in braces, if the text begins with some: `{2}`, `{2,}`, `{,3}` or `{2,3}`. -/
def bounds? : List Char → Option ((Nat × Option Nat) × List Char)
  | '\x7b' :: text =>
    match takeNumber text with
    | (some count, '\x7d' :: rest) => some ((count, some count), rest)
    | (least, ',' :: more) =>
      match takeNumber more with
      | (most, '\x7d' :: rest) => some ((least.getD 0, most), rest)
      | _ => none
    | _ => none
  | _ => none

/-- The repetition mark that the text begins with, if any. -/
def repetition? : List Char → Option ((Nat × Option Nat) × List Char)
  | '*' :: rest => some ((0, none), rest)
  | '+' :: rest => some ((1, none), rest)
  | '?' :: rest => some ((0, some 1), rest)
  | text => bounds? text

/-- An expression with the repetition mark that follows it. -/
def repeated (body : Regex) (text : List Char) : Regex × List Char :=
  match repetition? text with
  | none => (body, text)
  | some ((least, most), '?' :: rest) => (.loop false least most body, rest)
  | some ((least, most), rest) => (.loop true least most body, rest)

/-- What a bracket opens: a numbered group or only a grouping. -/
def opening : List Char → Bool × List Char
  | '?' :: ':' :: rest => (false, rest)
  | '?' :: 'P' :: '<' :: rest => (true, (rest.dropWhile (· != '>')).drop 1)
  | text => (true, text)

mutual

/-- Reads alternatives up to a closing bracket or the end, given how many groups were opened. -/
def alternatives? : Nat → Nat → List Char → Option (Regex × Nat × List Char)
  | 0, _, _ => none
  | fuel + 1, groups, text => do
    let (first, groups, rest) ← sequence? fuel groups text
    match rest with
    | '|' :: more =>
      let (second, groups, rest) ← alternatives? fuel groups more
      return (.alt first second, groups, rest)
    | _ => return (first, groups, rest)

/-- Reads one alternative. -/
def sequence? : Nat → Nat → List Char → Option (Regex × Nat × List Char)
  | 0, _, _ => none
  | fuel + 1, groups, text =>
    match text with
    | [] => some (.empty, groups, [])
    | '|' :: _ => some (.empty, groups, text)
    | ')' :: _ => some (.empty, groups, text)
    | _ => do
      let (atom, groups, rest) ← atom? fuel groups text
      let (atom, rest) := repeated atom rest
      let (others, groups, rest) ← sequence? fuel groups rest
      return (.seq atom others, groups, rest)

/-- Reads what a repetition mark would apply to. -/
def atom? : Nat → Nat → List Char → Option (Regex × Nat × List Char)
  | 0, _, _ => none
  | fuel + 1, groups, text =>
    match text with
    | [] => none
    | '.' :: rest => some (.any, groups, rest)
    | '^' :: rest => some (.start, groups, rest)
    | '$' :: rest => some (.finish, groups, rest)
    | '[' :: '^' :: rest => do
      let (items, rest) ← setItems? (rest.length + 1) true rest
      return (.set true items, groups, rest)
    | '[' :: rest => do
      let (items, rest) ← setItems? (rest.length + 1) true rest
      return (.set false items, groups, rest)
    | '(' :: rest => do
      let (numbered, rest) := opening rest
      let index := groups + 1
      let (body, groups, rest) ← alternatives? fuel (if numbered then index else groups) rest
      match rest with
      | ')' :: rest => return (if numbered then .group index body else body, groups, rest)
      | _ => none
    | '\\' :: c :: rest =>
      match shorthand? c with
      | some (kind, negated) => some (.named kind negated, groups, rest)
      | none => some (.char (escapedChar c), groups, rest)
    | '\\' :: [] => none
    | c :: rest =>
      if c == '*' || c == '+' || c == '?' then none else some (.char c, groups, rest)

end

/-- Reads a regular expression and counts its groups. -/
def read? (source : String) : Option (Regex × Nat) :=
  let text := source.toList
  match alternatives? (3 * text.length + 3) 0 text with
  | some (regex, groups, []) => some (regex, groups)
  | _ => none

end FeatureRunner.Regex

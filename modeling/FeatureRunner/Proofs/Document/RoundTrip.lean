import FeatureRunner.Document.Json
import FeatureRunner.Proofs.Config.Entries
import Mathlib.Algebra.Group.Nat.Defs
import Mathlib.Data.List.Forall2
import Mathlib.Data.List.Induction
import Mathlib.Data.List.Nodup

/-!
Values that are written as JSON on one line and read back. The writer of dispatch lines lets characters beyond
ASCII stand, so that what it escapes are quotes, backslashes and control characters; the reader is the one of
configuration files.

Main statement: `Value.Plain.spelt`.
-/

namespace FeatureRunner
open FeatureRunner.Text FeatureRunner.Number

theorem Value.keyedEntries_eq_self {entries : List (Value × Value)} (nodup : (keys entries).Nodup) :
    keyedEntries entries = entries := by
  induction entries using List.reverseRecOn with
  | nil => rfl
  | append_singleton entries entry ih =>
    rw [keys, List.map_append, List.nodup_append] at nodup
    obtain ⟨before, -, apart⟩ := nodup
    have unknown : held? entries entry.1.key = none :=
      held?_eq_none.2 fun member => apart _ member _ (by simp) rfl
    have step : keyedEntries (entries ++ [entry]) =
        alter entry.1 (fun _ => entry.2) (keyedEntries entries) := by
      simp [keyedEntries]
    rw [step, ih before, alter_of_unknown unknown]

theorem Value.keyedEntries_named {entries : List (String × Value)}
    (distinct : (entries.map Prod.fst).Nodup) :
    keyedEntries (entries.map fun entry => (.text entry.1, entry.2)) =
      entries.map fun entry => (.text entry.1, entry.2) := by
  have named : keys (entries.map fun entry => (.text entry.1, entry.2)) =
      (entries.map Prod.fst).map Key.text := by
    simp [keys, Function.comp_def]
  have injective : Function.Injective Key.text := fun _ _ => Key.text.inj
  exact keyedEntries_eq_self (named ▸ List.Nodup.map injective distinct)

namespace Document.Json

/-! ## Texts -/

theorem hexDigits_small : ∀ unit < 32, hexDigits 4 unit =
    ['0', '0', Nat.digitChar (unit / 16), Nat.digitChar (unit % 16)] := by
  decide

theorem hexDigit?_digitChar : ∀ digit < 16, hexDigit? (Nat.digitChar digit) = some digit := by
  decide

theorem hexUnit?_small {unit : Nat} (small : unit < 32) (rest : List Char) :
    hexUnit? (hexDigits 4 unit ++ rest) = some (unit, rest) := by
  have zero : hexDigit? '0' = some 0 := by decide
  have high := hexDigit?_digitChar (unit / 16) (by omega)
  have low := hexDigit?_digitChar (unit % 16) (by omega)
  rw [hexDigits_small unit small]
  simp [hexUnit?, zero, high, low]
  omega

theorem unitChar_small {c : Char} (small : c.toNat < 32) (rest : List Char) :
    unitChar c.toNat rest = (c, rest) := by
  have high : isHighUnit c.toNat = false := by simp [isHighUnit]; omega
  have low : isLowUnit c.toNat = false := by simp [isLowUnit]; omega
  simp [unitChar, high, low, Char.ofNat_toNat]

/-- A character is written as an escaped letter, as its number, or as it is. -/
theorem jsonChar_cases (c : Char) :
    (∃ letter, simpleEscape? letter = some c ∧ jsonChar false c = ['\\', letter]) ∨
    c.toNat < 32 ∧ jsonChar false c = unitEscape c.toNat ∨
    c ≠ '"' ∧ c ≠ '\\' ∧ 32 ≤ c.toNat ∧ jsonChar false c = [c] := by
  have numbered {number : Nat} (found : c.toNat = number) : some (Char.ofNat number) = some c := by
    rw [← found, Char.ofNat_toNat]
  unfold jsonChar
  split
  · next quoted =>
    obtain rfl | rfl : c = '"' ∨ c = '\\' := by simpa using quoted
    · exact .inl ⟨'"', rfl, rfl⟩
    · exact .inl ⟨'\\', rfl, rfl⟩
  · next unquoted =>
    split
    · next found => exact .inl ⟨'n', by rw [eq_of_beq found]; rfl, rfl⟩
    split
    · next found => exact .inl ⟨'r', by rw [eq_of_beq found]; rfl, rfl⟩
    split
    · next found => exact .inl ⟨'t', by rw [eq_of_beq found]; rfl, rfl⟩
    split
    · next found => exact .inl ⟨'b', numbered (eq_of_beq found), rfl⟩
    split
    · next found => exact .inl ⟨'f', numbered (eq_of_beq found), rfl⟩
    split
    · next small => exact .inr (.inl ⟨small, rfl⟩)
    · next large =>
      have apart : c ≠ '"' ∧ c ≠ '\\' := by simpa using unquoted
      exact .inr (.inr ⟨apart.1, apart.2, Nat.le_of_not_lt large, rfl⟩)

theorem readText_char (fuel : Nat) (before rest : List Char) (c : Char) :
    readText (fuel + 1) before (jsonChar false c ++ rest) = readText fuel (c :: before) rest := by
  rcases jsonChar_cases c with
    ⟨letter, known, same⟩ | ⟨small, same⟩ | ⟨quote, backslash, large, same⟩
  · have other : letter ≠ 'u' := by rintro rfl; cases known
    rw [same]
    simp [readText, known]
  · rw [same, unitEscape]
    simp [readText, hexUnit?_small small, unitChar_small small]
  · have printed : ¬ c.toNat < 32 := Nat.not_lt.2 large
    rw [same]
    simp [readText, backslash, printed]

theorem readText_chars (text before rest : List Char) {fuel : Nat}
    (enough : (text.flatMap (jsonChar false)).length < fuel) :
    readText fuel before (text.flatMap (jsonChar false) ++ '"' :: rest) =
      .ok (String.ofList (before.reverse ++ text), rest) := by
  -- The text behind grows by one character at a time, each at one unit of fuel however long it is written.
  induction text generalizing before fuel with
  | nil =>
    obtain ⟨fuel, rfl⟩ := Nat.exists_eq_add_of_lt enough
    simp [readText]
  | cons c text ih =>
    have size : 0 < (jsonChar false c).length := by
      rcases jsonChar_cases c with ⟨_, -, same⟩ | ⟨-, same⟩ | ⟨-, -, -, same⟩ <;>
        simp [same, unitEscape]
    rw [List.flatMap_cons, List.length_append] at enough
    obtain ⟨fuel, rfl⟩ : ∃ further, fuel = further + 1 := ⟨fuel - 1, by omega⟩
    rw [List.flatMap_cons, List.append_assoc, readText_char, ih _ (by omega)]
    simp

theorem readText_name (name : String) (rest : List Char) {fuel : Nat}
    (enough : (name.toList.flatMap (jsonChar false)).length < fuel) :
    readText fuel [] (name.toList.flatMap (jsonChar false) ++ '"' :: rest) = .ok (name, rest) := by
  rw [readText_chars _ _ _ enough, List.reverse_nil, List.nil_append, String.ofList_toList]

theorem digitChar_oneLine : ∀ digit < 16, Nat.digitChar digit ≠ '\n' ∧ Nat.digitChar digit ≠ '\r' := by
  decide

theorem unitEscape_small {unit : Nat} (small : unit < 32) :
    ∀ c ∈ unitEscape unit, c ≠ '\n' ∧ c ≠ '\r' := by
  have high := digitChar_oneLine (unit / 16) (by omega)
  have low := digitChar_oneLine (unit % 16) (by omega)
  rw [unitEscape, hexDigits_small unit small]
  simp [high, low]

/-- No character is written with a line end. -/
theorem jsonChar_oneLine (c : Char) : ∀ d ∈ jsonChar false c, d ≠ '\n' ∧ d ≠ '\r' := by
  rcases jsonChar_cases c with ⟨letter, known, same⟩ | ⟨small, same⟩ | ⟨-, -, large, same⟩
  · rw [same]
    have feed : letter ≠ '\n' := by rintro rfl; cases known
    have carriage : letter ≠ '\r' := by rintro rfl; cases known
    simp [feed, carriage]
  · rw [same]
    exact unitEscape_small small
  · have feed : c ≠ '\n' := by rintro rfl; contradiction
    have carriage : c ≠ '\r' := by rintro rfl; contradiction
    simp [same, feed, carriage]

/-! ## Whole numbers -/

/-- What may follow a value in a list or mapping. -/
def Stops (rest : List Char) : Prop :=
  ∀ c, rest.head? = some c → c = ',' ∨ c = ']' ∨ c = '\x7d'

theorem Stops.takeFraction {rest : List Char} (stops : Stops rest) : takeFraction rest = ([], rest) := by
  cases rest with
  | nil => rfl
  | cons c rest => obtain rfl | rfl | rfl := stops c rfl <;> rfl

theorem Stops.takeExponent? {rest : List Char} (stops : Stops rest) : takeExponent? rest = none := by
  cases rest with
  | nil => rfl
  | cons c rest => obtain rfl | rfl | rfl := stops c rfl <;> rfl

theorem Stops.takeWhile {digits rest : List Char} (stops : Stops rest)
    (all : ∀ c ∈ digits, c.isDigit = true) : (digits ++ rest).takeWhile Char.isDigit = digits := by
  rw [List.takeWhile_append_of_pos all]
  cases rest with
  | nil => simp
  | cons c rest => obtain rfl | rfl | rfl := stops c rfl <;> simp

theorem Stops.dropWhile {digits rest : List Char} (stops : Stops rest)
    (all : ∀ c ∈ digits, c.isDigit = true) : (digits ++ rest).dropWhile Char.isDigit = rest := by
  rw [List.dropWhile_append_of_pos all]
  cases rest with
  | nil => simp
  | cons c rest => obtain rfl | rfl | rfl := stops c rfl <;> simp

theorem digitValue_of_isDigit {c : Char} (digit : c.isDigit = true) :
    digitValue c = some (c.toNat - '0'.toNat) := by
  have bounds : 48 ≤ c.toNat ∧ c.toNat < 58 := by
    simp [Char.isDigit, UInt32.le_iff_toNat_le] at digit
    exact ⟨digit.1, Nat.lt_succ_of_le digit.2⟩
  simp [digitValue, zeroDigits, bounds]

theorem digit_ne {c other : Char} (digit : c.isDigit = true) (apart : other.isDigit = false) :
    c ≠ other := by
  rintro rfl
  rw [digit] at apart
  cases apart

theorem digitsFrom_of_isDigit {digits : List Char} (all : ∀ c ∈ digits, c.isDigit = true)
    (value : Nat) : digitsFrom value digits = Nat.ofDigitChars 10 digits value := by
  induction digits generalizing value with
  | nil => rfl
  | cons c digits ih =>
    obtain ⟨digit, all⟩ := List.forall_mem_cons.1 all
    rw [digitsFrom, ih all, digitValue_of_isDigit digit, Nat.ofDigitChars_cons, Nat.mul_comm]
    rfl

theorem head_toDigits {number : Nat} (positive : 0 < number) :
    ∃ c digits, Nat.toDigits 10 number = c :: digits ∧ c ≠ '0' := by
  have single : ∀ digit < 10, 0 < digit → Nat.digitChar digit ≠ '0' := by decide
  induction number using Nat.strongRecOn with
  | ind number ih =>
    by_cases small : number < 10
    · exact ⟨_, _, Nat.toDigits_of_lt_base small, single number small positive⟩
    · obtain ⟨c, digits, same, apart⟩ := ih (number / 10) (by omega) (by omega)
      refine ⟨c, digits ++ [(number % 10).digitChar], ?_, apart⟩
      rw [Nat.toDigits_of_base_le (by decide) (by omega), same, List.cons_append]

theorem readInt?_digits {sign digits : List Char} (signed : sign = [] ∨ sign = ['-'])
    (some : digits ≠ []) (all : ∀ c ∈ digits, c.isDigit = true) :
    readInt? (sign ++ digits) = Option.some (if sign = [] then (Nat.ofDigitChars 10 digits 0 : Int)
      else -(Nat.ofDigitChars 10 digits 0 : Int)) := by
  have sort : digits.all isDecimalDigit = true := List.all_eq_true.2 fun c member => by
    rw [isDecimalDigit, digitValue_of_isDigit (all c member)]
    rfl
  have apart : takeSign digits = (false, digits) := by
    cases digits with
    | nil => rfl
    | cons c digits =>
      have digit := all c List.mem_cons_self
      have minus : c ≠ '-' := digit_ne digit rfl
      have plus : c ≠ '+' := digit_ne digit rfl
      simp [takeSign, minus, plus]
  obtain rfl | rfl := signed
  · simp [readInt?, apart, some, sort, digitsValue, digitsFrom_of_isDigit all]
  · simp [readInt?, takeSign, some, sort, digitsValue, digitsFrom_of_isDigit all]

/-- A numeral without leading zeros is read as far as it goes. -/
theorem readNumber_digits {sign digits rest : List Char} {c : Char} (stops : Stops rest)
    (signed : sign = [] ∨ sign = ['-']) (all : ∀ d ∈ c :: digits, d.isDigit = true)
    (leading : c ≠ '0' ∨ c = '0' ∧ digits = []) (few : digits.length < digitBound) :
    readNumber (sign ++ c :: (digits ++ rest)) =
      .ok (.int ((readInt? (sign ++ c :: digits)).getD 0), rest) := by
  have taken := stops.takeWhile all
  have left := stops.dropWhile all
  rw [List.cons_append] at taken left
  have fits : ¬ digitBound < digits.length + 1 := by omega
  have minus : c ≠ '-' := digit_ne (all c List.mem_cons_self) rfl
  rcases signed with rfl | rfl <;> rcases leading with other | ⟨rfl, rfl⟩
  · simp [readNumber, minus, other, taken, left, stops.takeFraction, stops.takeExponent?, fits]
  · simp [readNumber, stops.takeFraction, stops.takeExponent?, digitBound]
  · simp [readNumber, other, taken, left, stops.takeFraction, stops.takeExponent?, fits]
  · simp [readNumber, stops.takeFraction, stops.takeExponent?, digitBound]

theorem readName?_digits {sign text : List Char} {c : Char} (signed : sign = [] ∨ sign = ['-'])
    (digit : c.isDigit = true) : readName? (sign ++ c :: text) = none := by
  have apart (letter : Char) (known : letter.isDigit = false) : letter ≠ c :=
    (digit_ne digit known).symm
  obtain rfl | rfl := signed <;>
    simp [readName?, names, dropBeginning?, apart 'n' rfl, apart 't' rfl, apart 'f' rfl, apart 'N' rfl,
      apart 'I' rfl, apart '-' rfl]

theorem readValue_numeral {sign text : List Char} {c : Char} (signed : sign = [] ∨ sign = ['-'])
    (digit : c.isDigit = true) (fuel : Nat) :
    readValue (fuel + 1) (sign ++ c :: text) = readNumber (sign ++ c :: text) := by
  have unnamed : readName? (sign ++ c :: text) = none := readName?_digits signed digit
  have quote : c ≠ '"' := digit_ne digit rfl
  have bracket : c ≠ '[' := digit_ne digit rfl
  have brace : c ≠ '\x7b' := digit_ne digit rfl
  obtain rfl | rfl := signed
  · rw [List.nil_append] at unnamed ⊢
    simp [readValue, quote, bracket, brace, unnamed]
  · rw [List.singleton_append] at unnamed ⊢
    simp [readValue, unnamed]

/-- How a whole number is spelt: a sign if it is negative, and its digits. -/
theorem numeral_cases (value : Int) : ∃ sign c digits, (toString value).toList = sign ++ c :: digits ∧
    (sign = [] ∨ sign = ['-']) ∧ c :: digits = Nat.toDigits 10 value.natAbs ∧
    (c ≠ '0' ∨ c = '0' ∧ digits = []) ∧ readInt? (sign ++ c :: digits) = some value := by
  have all (number : Nat) : ∀ c ∈ Nat.toDigits 10 number, c.isDigit = true :=
    fun c member => Nat.isDigit_of_mem_toDigits (by decide) (by decide) member
  cases value with
  | ofNat number =>
    have spelt : (toString (Int.ofNat number)).toList = Nat.toDigits 10 number := by
      simp [Int.toString_eq_repr, Int.repr, Nat.repr_eq_ofList_toDigits]
    have read := readInt?_digits (.inl rfl) Nat.toDigits_ne_nil (all number)
    rw [Nat.ofDigitChars_ten_toDigits] at read
    by_cases zero : number = 0
    · subst zero
      exact ⟨[], '0', [], spelt, .inl rfl, rfl, .inr ⟨rfl, rfl⟩, read⟩
    · obtain ⟨c, digits, same, leading⟩ := head_toDigits (Nat.pos_of_ne_zero zero)
      rw [same] at spelt read
      exact ⟨[], c, digits, spelt, .inl rfl, same.symm, .inl leading, read⟩
  | negSucc number =>
    have spelt : (toString (Int.negSucc number)).toList = '-' :: Nat.toDigits 10 (number + 1) := by
      simp [Int.toString_eq_repr, Int.repr, Nat.repr_eq_ofList_toDigits]
    have read := readInt?_digits (.inr rfl) Nat.toDigits_ne_nil (all (number + 1))
    rw [Nat.ofDigitChars_ten_toDigits] at read
    obtain ⟨c, digits, same, leading⟩ := head_toDigits number.succ_pos
    rw [same] at spelt read
    exact ⟨['-'], c, digits, spelt, .inr rfl, same.symm, .inl leading, read⟩

/-! ## Values -/

def OneLine (text : String) : Prop :=
  ∀ c ∈ text.toList, c ≠ '\n' ∧ c ≠ '\r'

theorem OneLine.append {first second : String} (before : OneLine first) (behind : OneLine second) :
    OneLine (first ++ second) := by
  intro c member
  rw [String.toList_append, List.mem_append] at member
  exact member.elim (before c) (behind c)

/-- A text that a value is written as on one line, and that is read back as that value. -/
structure Spelt (value : Value) (text : String) : Prop where
  written : ∀ depth, dispatchJson.write depth value = .ok text
  -- Behind the bracket that opens a list, another bracket would close it.
  begins : ∃ c rest, text.toList = c :: rest ∧ isSpace c = false ∧ c ≠ ']'
  oneLine : OneLine text
  read : ∀ fuel rest, text.length ≤ fuel → Stops rest →
    readValue fuel (text.toList ++ rest) = .ok (value, rest)

/-- Some fuel is left as no text is empty. -/
theorem Spelt.of_succ {value : Value} {text : String}
    (written : ∀ depth, dispatchJson.write depth value = .ok text)
    (begins : ∃ c rest, text.toList = c :: rest ∧ isSpace c = false ∧ c ≠ ']') (oneLine : OneLine text)
    (read : ∀ fuel rest, text.length ≤ fuel + 1 → Stops rest →
      readValue (fuel + 1) (text.toList ++ rest) = .ok (value, rest)) : Spelt value text := by
  refine ⟨written, begins, oneLine, fun fuel rest enough stops => ?_⟩
  obtain ⟨c, others, same, -⟩ := begins
  have length : text.length = others.length + 1 := by rw [← String.length_toList, same, List.length_cons]
  obtain ⟨fuel, rfl⟩ : ∃ further, fuel = further + 1 := ⟨fuel - 1, by omega⟩
  exact read fuel rest enough stops

theorem spelt_null : Spelt .null "null" := by
  apply Spelt.of_succ
  · simp [JsonStyle.write]
  · exact ⟨'n', ['u', 'l', 'l'], by decide⟩
  · simp [OneLine]
  · intro fuel rest _ _
    simp [readValue, readName?, names, dropBeginning?]

theorem spelt_bool (value : Bool) : Spelt (.bool value) (if value then "true" else "false") := by
  apply Spelt.of_succ
  · simp [JsonStyle.write]
  · cases value
    · exact ⟨'f', ['a', 'l', 's', 'e'], by decide⟩
    · exact ⟨'t', ['r', 'u', 'e'], by decide⟩
  · cases value <;> simp [OneLine]
  · intro fuel rest _ _
    cases value <;> simp [readValue, readName?, names, dropBeginning?]

theorem spelt_int {value : Int} (few : value.natAbs < 10 ^ digitBound) :
    Spelt (.int value) (toString value) := by
  obtain ⟨sign, c, digits, spelt, signed, natural, leading, read⟩ := numeral_cases value
  have all : ∀ d ∈ c :: digits, d.isDigit = true := by
    rw [natural]
    exact fun d member => Nat.isDigit_of_mem_toDigits (by decide) (by decide) member
  have size : digits.length < digitBound := by
    have length := (Nat.length_toDigits_le_iff (by decide) (by decide)).2 few
    rwa [← natural, List.length_cons] at length
  apply Spelt.of_succ
  · intro depth
    rw [JsonStyle.write, jsonInt?, Nat.pow_eq, if_neg (Nat.not_le.2 few)]
  · have digit := all c List.mem_cons_self
    have plain : isSpace c = false ∧ c ≠ ']' := by simp [isSpace, digit_ne digit]
    obtain rfl | rfl := signed
    · exact ⟨c, digits, spelt, plain⟩
    · exact ⟨'-', c :: digits, spelt, by decide⟩
  · intro d member
    rw [spelt, List.mem_append] at member
    rcases member with member | member
    · obtain rfl | rfl := signed
      · cases member
      · obtain rfl := List.mem_singleton.1 member
        decide
    · exact ⟨digit_ne (all d member) rfl, digit_ne (all d member) rfl⟩
  · intro fuel rest _ stops
    rw [spelt, List.append_assoc, List.cons_append,
      readValue_numeral signed (all c List.mem_cons_self), readNumber_digits stops signed all leading size, read]
    rfl

theorem toList_jsonText (text : String) :
    (jsonText false text).toList = '"' :: (text.toList.flatMap (jsonChar false) ++ ['"']) := by
  simp [jsonText]

theorem jsonText_oneLine (text : String) : OneLine (jsonText false text) := by
  intro c member
  rw [toList_jsonText, List.mem_cons, List.mem_append, List.mem_singleton, List.mem_flatMap] at member
  rcases member with rfl | ⟨d, -, member⟩ | rfl
  · decide
  · exact jsonChar_oneLine d c member
  · decide

theorem spelt_text (text : String) : Spelt (.text text) (jsonText false text) := by
  apply Spelt.of_succ
  · intro depth
    rw [JsonStyle.write]
    rfl
  · exact ⟨'"', _, toList_jsonText text, by decide, by decide⟩
  · exact jsonText_oneLine text
  · intro fuel rest enough _
    rw [← String.length_toList, toList_jsonText] at enough
    rw [List.length_cons, List.length_append, List.length_singleton] at enough
    have read := readText_name text rest (Nat.lt_of_succ_le (Nat.le_of_succ_le_succ enough))
    rw [toList_jsonText, List.cons_append, List.append_assoc, List.singleton_append]
    simp [readValue, read]

/-! ## Lists and mappings -/

theorem stops_of_comma (rest : List Char) : Stops (',' :: rest) := by simp [Stops]
theorem stops_of_bracket (rest : List Char) : Stops (']' :: rest) := by simp [Stops]
theorem stops_of_brace (rest : List Char) : Stops ('\x7d' :: rest) := by simp [Stops]

theorem skipSpace_cons {c : Char} {text : List Char} (solid : isSpace c = false) :
    skipSpace (c :: text) = c :: text := by
  simp [skipSpace, solid]

theorem Spelt.skipSpace {value : Value} {text : String} (spelt : Spelt value text) (rest : List Char) :
    skipSpace (text.toList ++ rest) = text.toList ++ rest := by
  obtain ⟨c, others, same, solid, -⟩ := spelt.begins
  rw [same, List.cons_append, skipSpace_cons solid]

theorem length_joined (part other : String) (parts : List String) :
    (", ".intercalate (part :: other :: parts)).length =
      part.length + 2 + (", ".intercalate (other :: parts)).length := by
  rw [String.intercalate_cons_cons, String.length_append, String.length_append]
  rfl

theorem toList_joined (part other : String) (parts : List String) :
    (", ".intercalate (part :: other :: parts)).toList =
      part.toList ++ ',' :: ' ' :: (", ".intercalate (other :: parts)).toList := by
  rw [String.intercalate_cons_cons, String.toList_append, String.toList_append, List.append_assoc]
  rfl

theorem joined_oneLine {parts : List String} (each : ∀ part ∈ parts, OneLine part) :
    OneLine (", ".intercalate parts) := by
  induction parts with
  | nil => simp [OneLine]
  | cons part parts ih =>
    obtain ⟨first, later⟩ := List.forall_mem_cons.1 each
    cases parts with
    | nil => simpa using first
    | cons other parts =>
      rw [String.intercalate_cons_cons]
      exact (first.append (by simp [OneLine])).append (ih later)

/-- What is spelt part by part begins as its first part does. -/
theorem joined_begins {part : String} {begun : List Char} {c : Char} (parts : List String)
    (begins : part.toList = c :: begun) :
    ∃ rest, (", ".intercalate (part :: parts)).toList = c :: rest := by
  cases parts with
  | nil => exact ⟨begun, by simpa using begins⟩
  | cons other parts => exact ⟨_, by rw [toList_joined, begins, List.cons_append]⟩

theorem skipSpace_joined {part : String} {begun text : List Char} {c : Char} (parts : List String)
    (begins : part.toList = c :: begun) (solid : isSpace c = false) :
    skipSpace ((", ".intercalate (part :: parts)).toList ++ text) =
      (", ".intercalate (part :: parts)).toList ++ text := by
  obtain ⟨behind, same⟩ := joined_begins parts begins
  rw [same, List.cons_append, skipSpace_cons solid]

section Items

variable {fuel : Nat} {text more rest : List Char} {value : Value} {values : List Value}

theorem readItems_last (here : readValue fuel text = .ok (value, ']' :: rest)) :
    readItems (fuel + 1) text = .ok ([value], rest) := by
  rw [readItems, here]
  rfl

theorem readItems_next (here : readValue fuel text = .ok (value, ',' :: ' ' :: more))
    (solid : skipSpace more = more) (later : readItems fuel more = .ok (values, rest)) :
    readItems (fuel + 1) text = .ok (value :: values, rest) := by
  have past : skipSpace (' ' :: more) = more := solid
  rw [readItems, here]
  show (readItems fuel (skipSpace (' ' :: more)) >>= fun read => pure (value :: read.1, read.2)) = _
  rw [past, later]
  rfl

end Items

theorem readItems_joined {items : List Value} {parts : List String}
    (spelt : List.Forall₂ Spelt items parts) (some : items ≠ []) (rest : List Char) {fuel : Nat}
    (enough : (", ".intercalate parts).length < fuel) :
    readItems fuel ((", ".intercalate parts).toList ++ ']' :: rest) = .ok (items, rest) := by
  induction spelt generalizing fuel with
  | nil => exact absurd rfl some
  | @cons item part items parts first later ih =>
    obtain ⟨fuel, rfl⟩ : ∃ further, fuel = further + 1 := ⟨fuel - 1, by omega⟩
    cases later with
    | nil =>
      rw [String.intercalate_singleton] at enough ⊢
      exact readItems_last (first.read fuel _ (Nat.le_of_lt_succ enough) (stops_of_bracket rest))
    | cons second later =>
      rw [length_joined] at enough
      rw [toList_joined, List.append_assoc]
      apply readItems_next (first.read fuel _ (by omega) (stops_of_comma _))
      · obtain ⟨c, begun, begins, solid, -⟩ := second.begins
        exact skipSpace_joined _ begins solid
      · exact ih (by simp) (by omega)

/-- A part of a mapping: the name in quotes and its value. -/
def SpeltEntry (entry : String × Value) (part : String) : Prop :=
  ∃ text, Spelt entry.2 text ∧ part = jsonText false entry.1 ++ ": " ++ text

theorem toList_entry (name text : String) (rest : List Char) :
    (jsonText false name ++ ": " ++ text).toList ++ rest = '"' ::
      (name.toList.flatMap (jsonChar false) ++ '"' :: ':' :: ' ' :: (text.toList ++ rest)) := by
  simp [toList_jsonText]

theorem length_entry (name text : String) : (jsonText false name ++ ": " ++ text).length =
    (name.toList.flatMap (jsonChar false)).length + 4 + text.length := by
  simp [← String.length_toList, toList_jsonText]
  omega

section Entries

variable {fuel : Nat} {text body more rest : List Char} {name : String} {value : Value}
  {entries : List (Value × Value)}

theorem readEntries_last (named : readText fuel [] text = .ok (name, ':' :: ' ' :: body))
    (solid : skipSpace body = body) (here : readValue fuel body = .ok (value, '\x7d' :: rest)) :
    readEntries (fuel + 1) ('"' :: text) = .ok ([(.text name, value)], rest) := by
  have past : skipSpace (' ' :: body) = body := solid
  rw [readEntries, named]
  show (readValue fuel (skipSpace (' ' :: body)) >>= _) = _
  rw [past, here]
  rfl

theorem readEntries_next (named : readText fuel [] text = .ok (name, ':' :: ' ' :: body))
    (solid : skipSpace body = body) (here : readValue fuel body = .ok (value, ',' :: ' ' :: more))
    (begun : skipSpace more = more) (later : readEntries fuel more = .ok (entries, rest)) :
    readEntries (fuel + 1) ('"' :: text) = .ok ((.text name, value) :: entries, rest) := by
  have past : skipSpace (' ' :: body) = body := solid
  have next : skipSpace (' ' :: more) = more := begun
  rw [readEntries, named]
  show (readValue fuel (skipSpace (' ' :: body)) >>= _) = _
  rw [past, here]
  show (readEntries fuel (skipSpace (' ' :: more)) >>= _) = _
  rw [next, later]
  rfl

end Entries

theorem readEntries_joined {entries : List (String × Value)} {parts : List String}
    (spelt : List.Forall₂ SpeltEntry entries parts) (some : entries ≠ []) (rest : List Char) {fuel : Nat}
    (enough : (", ".intercalate parts).length < fuel) :
    readEntries fuel ((", ".intercalate parts).toList ++ '\x7d' :: rest) =
      .ok (entries.map fun entry => (.text entry.1, entry.2), rest) := by
  induction spelt generalizing fuel with
  | nil => exact absurd rfl some
  | @cons entry part entries parts first later ih =>
    obtain ⟨fuel, rfl⟩ : ∃ further, fuel = further + 1 := ⟨fuel - 1, by omega⟩
    obtain ⟨text, spelt, rfl⟩ := first
    cases later with
    | nil =>
      rw [String.intercalate_singleton, length_entry] at enough
      rw [String.intercalate_singleton, toList_entry]
      apply readEntries_last (readText_name _ _ (by omega)) (spelt.skipSpace _)
      exact spelt.read fuel _ (by omega) (stops_of_brace rest)
    | cons second later =>
      rw [length_joined, length_entry] at enough
      rw [toList_joined, List.append_assoc, toList_entry]
      apply readEntries_next (readText_name _ _ (by omega)) (spelt.skipSpace _)
        (spelt.read fuel _ (by omega) (stops_of_comma _))
      · obtain ⟨_, _, rfl⟩ := second
        exact skipSpace_joined _ ((List.append_nil _).symm.trans (toList_entry _ _ [])) rfl
      · exact ih (by simp) (by omega)

theorem enclose_line (opening closing : String) (depth : Nat) (parts : List String) :
    dispatchJson.enclose opening closing depth parts =
      opening ++ ", ".intercalate parts ++ closing := by
  cases parts with
  | nil => simp [JsonStyle.enclose]
  | cons part parts => simp [JsonStyle.enclose, dispatchJson]

theorem writeList_parts {items : List Value} {parts : List String}
    (spelt : List.Forall₂ Spelt items parts) (depth : Nat) :
    dispatchJson.writeList depth items = .ok parts := by
  induction spelt with
  | nil => simp [JsonStyle.writeList]
  | cons first later ih =>
    rw [JsonStyle.writeList, first.written, ih]
    rfl

theorem writeEntries_parts {entries : List (String × Value)} {parts : List String}
    (spelt : List.Forall₂ SpeltEntry entries parts) (depth : Nat) :
    dispatchJson.writeEntries depth (entries.map fun entry => (.text entry.1, entry.2)) = .ok parts := by
  induction spelt with
  | nil => simp [JsonStyle.writeEntries]
  | @cons entry part entries parts first later ih =>
    obtain ⟨text, spelt, rfl⟩ := first
    rw [List.map_cons, JsonStyle.writeEntries, JsonStyle.key?, spelt.written, ih]
    rfl

theorem oneLine_items {items : List Value} {parts : List String}
    (spelt : List.Forall₂ Spelt items parts) : ∀ part ∈ parts, OneLine part := by
  induction spelt with
  | nil => simp
  | cons first later ih => exact List.forall_mem_cons.2 ⟨first.oneLine, ih⟩

theorem oneLine_entries {entries : List (String × Value)} {parts : List String}
    (spelt : List.Forall₂ SpeltEntry entries parts) : ∀ part ∈ parts, OneLine part := by
  induction spelt with
  | nil => simp
  | @cons entry part entries parts first later ih =>
    obtain ⟨text, spelt, rfl⟩ := first
    have separated : OneLine ": " := by simp [OneLine]
    exact List.forall_mem_cons.2 ⟨((jsonText_oneLine _).append separated).append spelt.oneLine, ih⟩

theorem toList_enclosed (opening closing joined : String) (rest : List Char) :
    (opening ++ joined ++ closing).toList ++ rest =
      opening.toList ++ (joined.toList ++ (closing.toList ++ rest)) := by
  simp

theorem length_enclosed {opening closing joined : String} (first : opening.length = 1)
    (last : closing.length = 1) : (opening ++ joined ++ closing).length = joined.length + 2 := by
  simp [first, last]
  omega

theorem enclosing_oneLine : ∀ text ∈ ["[", "]", "\x7b", "\x7d"], OneLine text := by
  simp [OneLine]

theorem spelt_list {items : List Value} {parts : List String} (spelt : List.Forall₂ Spelt items parts) :
    Spelt (.list items) ("[" ++ ", ".intercalate parts ++ "]") := by
  apply Spelt.of_succ
  · intro depth
    rw [JsonStyle.write, writeList_parts spelt]
    exact congrArg Except.ok (enclose_line _ _ _ _)
  · exact ⟨'[', _, (List.append_nil _).symm.trans (toList_enclosed _ _ _ []), by decide, by decide⟩
  · have inner := joined_oneLine (oneLine_items spelt)
    exact ((enclosing_oneLine "[" (by simp)).append inner).append (enclosing_oneLine "]" (by simp))
  · intro fuel rest enough stops
    rw [length_enclosed rfl rfl] at enough
    rw [toList_enclosed]
    show readValue (fuel + 1) ('[' :: ((", ".intercalate parts).toList ++ ']' :: rest)) = _
    cases spelt with
    | nil => rfl
    | @cons item part items parts first later =>
      have read := readItems_joined (.cons first later) (by simp) rest (by omega : _ < fuel)
      obtain ⟨c, begun, begins, solid, other⟩ := first.begins
      obtain ⟨behind, same⟩ := joined_begins parts begins
      rw [same, List.cons_append] at read ⊢
      rw [readValue, skipSpace_cons solid]
      simp [other, read]

theorem spelt_record {entries : List (String × Value)} {parts : List String}
    (distinct : (entries.map Prod.fst).Nodup) (spelt : List.Forall₂ SpeltEntry entries parts) :
    Spelt (.record entries) ("\x7b" ++ ", ".intercalate parts ++ "\x7d") := by
  apply Spelt.of_succ
  · intro depth
    rw [Value.record, JsonStyle.write, writeEntries_parts spelt]
    exact congrArg Except.ok (enclose_line _ _ _ _)
  · exact ⟨'\x7b', _, (List.append_nil _).symm.trans (toList_enclosed _ _ _ []), by decide, by decide⟩
  · have inner := joined_oneLine (oneLine_entries spelt)
    exact ((enclosing_oneLine "\x7b" (by simp)).append inner).append
      (enclosing_oneLine "\x7d" (by simp))
  · intro fuel rest enough stops
    rw [length_enclosed rfl rfl] at enough
    rw [toList_enclosed]
    show readValue (fuel + 1) ('\x7b' :: ((", ".intercalate parts).toList ++ '\x7d' :: rest)) = _
    cases spelt with
    | nil => rfl
    | @cons entry part entries parts first later =>
      have read := readEntries_joined (.cons first later) (by simp) rest (by omega : _ < fuel)
      obtain ⟨_, _, rfl⟩ := first
      obtain ⟨behind, same⟩ := joined_begins parts ((List.append_nil _).symm.trans (toList_entry _ _ []))
      rw [same, List.cons_append] at read ⊢
      rw [readValue, skipSpace_cons rfl]
      have kept := Value.keyedEntries_named distinct
      rw [List.map_cons] at kept
      simp [read, kept, Value.record]

end Document.Json

/-- Values without fractions, without numbers too long to be written, and with texts as the keys of
mappings. -/
inductive Value.Plain : Value → Prop
  | null : Plain .null
  | bool (value : Bool) : Plain (.bool value)
  | int (value : Int) (few : value.natAbs < 10 ^ digitBound) : Plain (.int value)
  | text (value : String) : Plain (.text value)
  | list (items : List Value) (each : ∀ item ∈ items, Plain item) : Plain (.list items)
  | record (entries : List (String × Value)) (distinct : (entries.map Prod.fst).Nodup)
      (each : ∀ entry ∈ entries, Plain entry.2) : Plain (.record entries)

namespace Document.Json

/-- A document may consist of such a text. -/
theorem read_of_spelt {value : Value} {text : String} (spelt : Spelt value text) :
    read text = .ok value := by
  have solid : skipSpace text.toList = text.toList := by simpa using spelt.skipSpace []
  have enough : text.length ≤ 2 * text.toList.length + 1 := by rw [String.length_toList]; omega
  have whole := spelt.read _ [] enough (by simp [Stops])
  rw [List.append_nil] at whole
  rw [read, solid]
  show (readValue _ text.toList >>= _) = _
  rw [whole]
  rfl

theorem exists_forall₂ {α β : Type} {related : α → β → Prop} {items : List α}
    (each : ∀ item ∈ items, ∃ part, related item part) : ∃ parts, List.Forall₂ related items parts := by
  induction items with
  | nil => exact ⟨[], .nil⟩
  | cons item items ih =>
    obtain ⟨⟨part, first⟩, later⟩ := List.forall_mem_cons.1 each
    obtain ⟨parts, related⟩ := ih later
    exact ⟨part :: parts, .cons first related⟩

end Document.Json

open Document.Json

theorem Value.Plain.spelt {value : Value} (plain : value.Plain) :
    ∃ text, Spelt value text := by
  induction plain with
  | null => exact ⟨_, spelt_null⟩
  | bool value => exact ⟨_, spelt_bool value⟩
  | int value few => exact ⟨_, spelt_int few⟩
  | text value => exact ⟨_, spelt_text value⟩
  | list items _ ih =>
    obtain ⟨parts, spelt⟩ := exists_forall₂ ih
    exact ⟨_, spelt_list spelt⟩
  | record entries distinct _ ih =>
    have each : ∀ entry ∈ entries, ∃ part, SpeltEntry entry part := fun entry member => by
      obtain ⟨text, spelt⟩ := ih entry member
      exact ⟨_, text, spelt, rfl⟩
    obtain ⟨parts, spelt⟩ := exists_forall₂ each
    exact ⟨_, spelt_record distinct spelt⟩

end FeatureRunner

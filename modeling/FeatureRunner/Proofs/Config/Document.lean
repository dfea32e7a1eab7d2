import FeatureRunner.Config
import FeatureRunner.Proofs.Config.Entries

/-!
What a configuration file can hold: values in whose mappings each key stands once. The readers of
both formats give nothing else.

Main statement: `Config.readFile_keyed`.
-/

namespace FeatureRunner
open FeatureRunner.Text

/-! ## Documents -/

namespace Value

/-- A value as a file can hold it: a mapping that it is, or that stands in one, has each key
once. -/
inductive Keyed : Value → Prop
  | leaf {value : Value} (single : ∀ entries, value ≠ .dict entries) : Keyed value
  | dict {entries : List (Value × Value)} (nodup : (keys entries).Nodup)
    (values : ∀ entry ∈ entries, Keyed entry.2) : Keyed (.dict entries)

namespace Keyed
variable {entries : List (Value × Value)}

theorem nodup (keyed : (Value.dict entries).Keyed) : (keys entries).Nodup := by
  cases keyed with
  | leaf single => exact absurd rfl (single entries)
  | dict nodup values => exact nodup

theorem values (keyed : (Value.dict entries).Keyed) : ∀ entry ∈ entries, entry.2.Keyed := by
  cases keyed with
  | leaf single => exact absurd rfl (single entries)
  | dict nodup values => exact values

theorem of_held? (keyed : (Value.dict entries).Keyed) {name : Key} {value : Value}
    (found : held? entries name = some value) : value.Keyed := by
  obtain ⟨entry, member, -, rfl⟩ := mem_of_held? found
  exact keyed.values entry member

theorem keyedEntries (values : ∀ entry ∈ entries, entry.2.Keyed) :
    (Value.dict (Value.keyedEntries entries)).Keyed := by
  -- What has been put together so far has each key once after every entry.
  suffices all : ∀ map, (Value.dict map).Keyed → (Value.dict (entries.foldl
      (fun map entry => Value.alter entry.1 (fun _ => entry.2) map) map)).Keyed from
    all [] (.dict .nil (by simp))
  induction entries with
  | nil => exact fun map keyed => keyed
  | cons entry rest ih =>
    obtain ⟨value, later⟩ := List.forall_mem_cons.1 values
    exact fun map keyed => ih later _ (.dict (nodup_alter keyed.nodup)
      (forall_alter keyed.values fun _ => value))

end Keyed
end Value

/-! ## Answers -/

/-- If a computation gives a value, that is as it should be. -/
def Yields {α : Type} (holds : α → Prop) (answer : Except Fault α) : Prop :=
  ∀ value, answer = .ok value → holds value

namespace Yields
variable {α β : Type} {holds : α → Prop} {holds' : β → Prop}

theorem ok {value : α} (given : holds value) : Yields holds (.ok value) := by
  rintro _ ⟨⟩
  exact given

theorem error {fault : Fault} : Yields holds (.error fault) := by
  rintro _ ⟨⟩

theorem bind {answer : Except Fault α} {further : α → Except Fault β} (first : Yields holds answer)
    (second : ∀ value, holds value → Yields holds' (further value)) :
    Yields holds' (answer >>= further) := by
  cases answer with
  | ok value => exact second value (first value rfl)
  | error fault => exact error

theorem trivial {answer : Except Fault α} : Yields (fun _ => True) answer :=
  fun _ _ => True.intro

end Yields

/-! ## The two formats -/

namespace Yaml
open FeatureRunner.Value

theorem wholeNumber?_keyed {text : List Char} {answer : Except Fault Value}
    (found : wholeNumber? text = some answer) : Yields Keyed answer := by
  obtain ⟨magnitude, -, rfl⟩ := Option.map_eq_some_iff.1 found
  cases magnitude with
  | ok value => exact .ok (.leaf (by simp))
  | error fault => exact .error

theorem resolve_keyed (text : List Char) : Yields Keyed (resolve text) := by
  unfold resolve
  dsimp only
  split
  · exact .ok (.leaf (by simp))
  split
  · exact .ok (.leaf (by simp))
  split
  · exact .ok (.leaf (by simp))
  split
  · exact wholeNumber?_keyed ‹_›
  split
  · exact .ok (.leaf (by simp))
  · split
    · exact .ok (.leaf (by simp))
    · exact .ok (.leaf (by simp))

theorem readScalar_keyed (inFlow : Bool) (least : Nat) (cursor : Cursor) :
    Yields (fun read : Value × Cursor × Bool => read.1.Keyed) (readScalar inFlow least cursor) := by
  unfold readScalar
  split
  · exact .bind .trivial fun read _ => .ok (.leaf (by simp))
  · exact .bind .trivial fun read _ => .ok (.leaf (by simp))
  · split
    · exact .bind (resolve_keyed _) fun value keyed => .ok keyed
    · exact .error

/-- What the readers of flow collections give with some fuel. -/
structure FlowReads (fuel : Nat) : Prop where
  flow (cursor : Cursor) :
    Yields (fun read : Value × Cursor => read.1.Keyed) (readFlow fuel cursor)
  value (cursor : Cursor) :
    Yields (fun read : Value × Cursor => read.1.Keyed) (readFlowValue fuel cursor)
  entries (cursor : Cursor) :
    Yields (fun read : List (Value × Value) × Cursor => ∀ entry ∈ read.1, entry.2.Keyed)
      (readFlowEntries fuel cursor)

theorem readFlow_succ {fuel : Nat} (reads : FlowReads fuel) (cursor : Cursor) :
    Yields (fun read : Value × Cursor => read.1.Keyed) (readFlow (fuel + 1) cursor) := by
  unfold readFlow
  split
  · exact .error
  split
  · exact .bind .trivial fun read _ => .ok (.leaf (by simp))
  · exact .bind (reads.entries _) fun read values => .ok (.keyedEntries values)
  · exact .bind (readScalar_keyed _ _ _) fun read keyed => .ok keyed

theorem readFlowValue_succ {fuel : Nat} (reads : FlowReads fuel) (cursor : Cursor) :
    Yields (fun read : Value × Cursor => read.1.Keyed) (readFlowValue (fuel + 1) cursor) := by
  unfold readFlowValue
  dsimp only
  split
  · split
    · exact .ok (.leaf (by simp))
    · exact .ok (.leaf (by simp))
    · exact .ok (.leaf (by simp))
    · exact reads.flow _
  · exact .ok (.leaf (by simp))

theorem readFlowEntries_succ {fuel : Nat} (reads : FlowReads fuel) (cursor : Cursor) :
    Yields (fun read : List (Value × Value) × Cursor => ∀ entry ∈ read.1, entry.2.Keyed)
      (readFlowEntries (fuel + 1) cursor) := by
  unfold readFlowEntries
  dsimp only
  split
  · exact .ok (by simp)
  refine .bind .trivial fun ⟨key, after⟩ _ => ?_
  dsimp only
  split
  · exact .error
  · refine .bind (reads.value _) fun ⟨value, last⟩ keyed => ?_
    dsimp only
    split
    · exact .bind (reads.entries _) fun later values =>
        .ok (List.forall_mem_cons.2 ⟨keyed, values⟩)
    · exact .ok (List.forall_mem_singleton.2 keyed)
    · exact .error

theorem flowReads (fuel : Nat) : FlowReads fuel := by
  induction fuel with
  | zero => exact ⟨fun _ => .error, fun _ => .error, fun _ => .error⟩
  | succ fuel ih => exact ⟨readFlow_succ ih, readFlowValue_succ ih, readFlowEntries_succ ih⟩

/-- What the readers of block collections give with some fuel. -/
structure BlockReads (fuel : Nat) : Prop where
  block (least : Nat) (inline : Bool) (dashes : Option Nat) (cursor : Cursor) :
    Yields (fun read : Value × Cursor => read.1.Keyed) (readBlock fuel least inline dashes cursor)
  entries (column : Nat) (key : Value) (cursor : Cursor) :
    Yields (fun read : List (Value × Value) × Cursor => ∀ entry ∈ read.1, entry.2.Keyed)
      (readEntries fuel column key cursor)

theorem readBlock_succ {fuel : Nat} (reads : BlockReads fuel) (least : Nat) (inline : Bool)
    (dashes : Option Nat) (cursor : Cursor) :
    Yields (fun read : Value × Cursor => read.1.Keyed)
      (readBlock (fuel + 1) least inline dashes cursor) := by
  have items (column : Nat) (start : Cursor) :
      Yields (fun read : Value × Cursor => read.1.Keyed) (do
        let read ← readItems fuel column start
        return (Value.list read.1, read.2)) :=
    .bind .trivial fun read _ => .ok (.leaf (by simp))
  have flow (start : Cursor) : Yields (fun read : Value × Cursor => read.1.Keyed) (do
      let read ← readFlow fuel start
      if read.2.skipSpaces.atColon false then .error .malformedYaml
      else return (read.1, read.2)) := by
    refine .bind ((flowReads fuel).flow start) fun read keyed => ?_
    split
    · exact .error
    · exact .ok keyed
  unfold readBlock
  dsimp only
  split
  · exact .ok (.leaf (by simp))
  split
  · split
    · exact items _ _
    · exact .ok (.leaf (by simp))
  split
  · split
    · exact items _ _
    · exact .error
  split
  · exact flow _
  · exact flow _
  · refine .bind (readScalar_keyed _ _ _) fun ⟨value, after, folded⟩ keyed => ?_
    dsimp only
    split
    · split
      · exact .bind (reads.entries _ _ _) fun read values => .ok (.keyedEntries values)
      · exact .error
    · exact .ok keyed

theorem readEntries_succ {fuel : Nat} (reads : BlockReads fuel) (column : Nat) (key : Value)
    (cursor : Cursor) :
    Yields (fun read : List (Value × Value) × Cursor => ∀ entry ∈ read.1, entry.2.Keyed)
      (readEntries (fuel + 1) column key cursor) := by
  unfold readEntries
  refine .bind (reads.block _ _ _ _) fun ⟨value, after⟩ keyed => ?_
  dsimp only
  split
  · exact .ok (List.forall_mem_singleton.2 keyed)
  split
  · refine .bind .trivial fun ⟨next, behind, folded⟩ _ => ?_
    dsimp only
    split
    · exact .bind (reads.entries _ _ _) fun later values =>
        .ok (List.forall_mem_cons.2 ⟨keyed, values⟩)
    · exact .error
  · exact .error

theorem blockReads (fuel : Nat) : BlockReads fuel := by
  induction fuel with
  | zero => exact ⟨fun _ _ _ _ => .error, fun _ _ _ => .error⟩
  | succ fuel ih => exact ⟨readBlock_succ ih, readEntries_succ ih⟩

theorem read_keyed (source : String) : Yields Keyed (read source) := by
  have whole (text : List Char) : Yields Keyed (if !text.all isAllowed then .error .malformedYaml
      else do
        let read ← readBlock (4 * text.length + 16) 0 false none (skipMark ⟨text, 0⟩)
        if isOver read.2 then return read.1 else .error .malformedYaml) := by
    split
    · exact .error
    · refine .bind ((blockReads _).block _ _ _ _) fun read keyed => ?_
      split
      · exact .ok keyed
      · exact .error
  exact whole _

end Yaml

namespace Document.Json
open FeatureRunner.Value

theorem readName?_keyed {text rest : List Char} {value : Value}
    (found : readName? text = some (value, rest)) : value.Keyed := by
  obtain ⟨⟨name, known⟩, member, taken⟩ := List.exists_of_findSome?_eq_some found
  obtain ⟨after, -, same⟩ := Option.map_eq_some_iff.1 taken
  obtain ⟨rfl, rfl⟩ := Prod.mk.inj same
  have leaves : ∀ pair ∈ names, ∀ entries, pair.2 ≠ .dict entries := by simp [names]
  exact .leaf (leaves _ member)

theorem readNumber_keyed (text : List Char) :
    Yields (fun read : Value × List Char => read.1.Keyed) (readNumber text) := by
  unfold readNumber
  dsimp only
  repeat' split
  all_goals first
    | exact .error
    | exact .ok (.leaf (by simp))

/-- What the readers give with some fuel. -/
structure Reads (fuel : Nat) : Prop where
  value (text : List Char) :
    Yields (fun read : Value × List Char => read.1.Keyed) (readValue fuel text)
  entries (text : List Char) :
    Yields (fun read : List (Value × Value) × List Char => ∀ entry ∈ read.1, entry.2.Keyed)
      (readEntries fuel text)

theorem readValue_succ {fuel : Nat} (reads : Reads fuel) (text : List Char) :
    Yields (fun read : Value × List Char => read.1.Keyed) (readValue (fuel + 1) text) := by
  unfold readValue
  split
  · exact .bind .trivial fun read _ => .ok (.leaf (by simp))
  · split
    · exact .ok (.leaf (by simp))
    · exact .bind .trivial fun read _ => .ok (.leaf (by simp))
  · split
    · exact .ok (.dict .nil (by simp))
    · exact .bind (reads.entries _) fun read values => .ok (.keyedEntries values)
  · split
    · exact .ok (readName?_keyed ‹_›)
    · exact readNumber_keyed _

theorem readEntries_succ {fuel : Nat} (reads : Reads fuel) (text : List Char) :
    Yields (fun read : List (Value × Value) × List Char => ∀ entry ∈ read.1, entry.2.Keyed)
      (readEntries (fuel + 1) text) := by
  unfold readEntries
  split
  · refine .bind .trivial fun ⟨key, rest⟩ _ => ?_
    dsimp only
    split
    · refine .bind (reads.value _) fun ⟨value, rest⟩ keyed => ?_
      dsimp only
      split
      · exact .ok (List.forall_mem_singleton.2 keyed)
      · exact .bind (reads.entries _) fun later values =>
          .ok (List.forall_mem_cons.2 ⟨keyed, values⟩)
      · exact .error
    · exact .error
  · exact .error

theorem reads (fuel : Nat) : Reads fuel := by
  induction fuel with
  | zero => exact ⟨fun _ => .error, fun _ => .error⟩
  | succ fuel ih => exact ⟨readValue_succ ih, readEntries_succ ih⟩

theorem read_keyed (source : String) : Yields Keyed (read source) := by
  refine .bind ((reads _).value _) fun ⟨value, rest⟩ keyed => ?_
  dsimp only
  split
  · exact .ok keyed
  · exact .error

end Document.Json

theorem Config.readFile_keyed (path : Path) (text : String) :
    Yields Value.Keyed (Config.readFile path text) := by
  unfold readFile
  split
  · exact Yaml.read_keyed text
  split
  · exact Document.Json.read_keyed text
  · exact .error

end FeatureRunner

import FeatureRunner.Actor
import FeatureRunner.Proofs.Document.RoundTrip
import Mathlib.Data.List.TakeWhile

/-!
What a dispatch line says. The name of a method has no colon, so that it ends at the first colon of
the line; what follows, put in brackets, is a document from which the arguments are read back. As
neither has line ends, a trace of such lines is found again in its text.

Main statement: `lines_identify`.
-/

namespace FeatureRunner
open FeatureRunner.Document.Json

namespace Actor

/-- A call whose method is an identifier and whose arguments are plain. -/
structure PlainCall (name : String) (args : List Value) : Prop where
  identifier : Text.isIdentifier name = true
  plain : ∀ arg ∈ args, arg.Plain

variable {name other text shown : String} {args others : List Value}

/-! ## Names -/

theorem begins_apart {c : Char} (begins : Text.beginsIdentifier c = true) :
    c ≠ ':' ∧ c ≠ '\n' ∧ c ≠ '\r' := by
  refine ⟨?_, ?_, ?_⟩ <;> (rintro rfl; cases begins)

theorem continues_apart {c : Char} (continues : Text.continuesIdentifier c = true) :
    c ≠ ':' ∧ c ≠ '\n' ∧ c ≠ '\r' := by
  refine ⟨?_, ?_, ?_⟩ <;> (rintro rfl; cases continues)

theorem identifier_apart (identifier : Text.isIdentifier name = true) :
    ∀ c ∈ name.toList, c ≠ ':' ∧ c ≠ '\n' ∧ c ≠ '\r' := by
  unfold Text.isIdentifier at identifier
  cases spelt : name.toList with
  | nil => simp
  | cons first rest =>
    rw [spelt] at identifier
    obtain ⟨begins, continues⟩ := (Bool.and_eq_true _ _).mp identifier
    intro c member
    rcases List.mem_cons.1 member with rfl | later
    · exact begins_apart begins
    · exact continues_apart (List.all_eq_true.1 continues c later)

/-! ## Lines -/

theorem writes_parts {parts : List String} (spelt : List.Forall₂ Spelt args parts) :
    args.mapM (dispatchJson.write 0) = .ok parts := by
  induction spelt with
  | nil => rfl
  | cons first later ih =>
    rw [List.mapM_cons, first.written, ih]
    rfl

/-- The line of a plain call, and the list that its arguments are spelt as. -/
theorem line_spelt (call : PlainCall name args) : ∃ shown,
    line name args = .ok (if args = [] then name else name ++ ": " ++ shown) ∧
      Spelt (.list args) ("[" ++ shown ++ "]") := by
  obtain ⟨parts, spelt⟩ := exists_forall₂ fun arg member => (call.plain arg member).spelt
  refine ⟨", ".intercalate parts, ?_, spelt_list spelt⟩
  cases args with
  | nil => rfl
  | cons arg args =>
    rw [line, humanizeArgs, writes_parts spelt]
    rfl

theorem name_of_line (call : PlainCall name args) (known : line name args = .ok text) :
    text.toList.takeWhile (· ≠ ':') = name.toList := by
  have inside : ∀ c ∈ name.toList, decide (c ≠ ':') = true := fun c member =>
    decide_eq_true (identifier_apart call.identifier c member).1
  obtain ⟨shown, same, -⟩ := line_spelt call
  rw [known, Except.ok.injEq] at same
  rw [same]
  split
  · exact List.takeWhile_eq_self_iff.2 inside
  · rw [String.toList_append, String.toList_append, List.append_assoc,
      List.takeWhile_append_of_pos inside]
    simp

theorem line_oneLine (call : PlainCall name args) (known : line name args = .ok text) :
    OneLine text := by
  have named : OneLine name := fun c member => (identifier_apart call.identifier c member).2
  obtain ⟨shown, same, spelt⟩ := line_spelt call
  rw [known, Except.ok.injEq] at same
  rw [same]
  split
  · exact named
  · have inner : OneLine shown := fun c member => spelt.oneLine c (by simp [member])
    have separated : OneLine ": " := by simp [OneLine]
    exact (named.append separated).append inner

theorem name_ne (name shown : String) : name ≠ name ++ ": " ++ shown := by
  intro same
  have longer := congrArg String.length same
  have separator : ": ".length = 2 := rfl
  rw [String.length_append, String.length_append] at longer
  omega

theorem line_injective (call : PlainCall name args) (twin : PlainCall other others)
    (alike : line name args = line other others) : name = other ∧ args = others := by
  obtain ⟨shown, known, spelt⟩ := line_spelt call
  obtain ⟨shown', known', spelt'⟩ := line_spelt twin
  have same : name = other := by
    have first := name_of_line call known
    have second := name_of_line twin (alike ▸ known)
    exact String.toList_injective (first.symm.trans second)
  subst same
  refine ⟨rfl, ?_⟩
  rw [known, known', Except.ok.injEq] at alike
  by_cases bare : args = [] <;> by_cases bare' : others = []
  · rw [bare, bare']
  · rw [if_pos bare, if_neg bare'] at alike
    exact absurd alike (name_ne _ _)
  · rw [if_neg bare, if_pos bare'] at alike
    exact absurd alike.symm (name_ne _ _)
  · rw [if_neg bare, if_neg bare'] at alike
    obtain rfl : shown = shown' := by simpa using alike
    have read := (read_of_spelt spelt).symm.trans (read_of_spelt spelt')
    simpa using read

/-! ## Traces -/

/-- The pieces of a text between its line feeds. -/
def splitLines (text : String) : List String :=
  (text.toList.splitOn '\n').map String.ofList

theorem splitLines_intercalate {lines : List String} (some : lines ≠ [])
    (each : ∀ text ∈ lines, '\n' ∉ text.toList) : splitLines ("\n".intercalate lines) = lines := by
  have feed : "\n".toList = ['\n'] := rfl
  have pieces : ∀ piece ∈ lines.map String.toList, '\n' ∉ piece := by simpa using each
  rw [splitLines, String.toList_intercalate, feed, List.splitOn_intercalate _ pieces (by simpa using some)]
  simp

theorem no_feed (oneLine : OneLine text) : '\n' ∉ text.toList :=
  fun member => (oneLine _ member).1 rfl

/-- The line of a call is one line, from which the call is found again; and the lines of a trace are
found again in its text. -/
theorem lines_identify :
    (∀ name args, PlainCall name args → ∃ text, line name args = .ok text ∧ OneLine text ∧
      (args = [] → text = name) ∧
      (args ≠ [] → ∃ shown, text = name ++ ": " ++ shown ∧
        read ("[" ++ shown ++ "]") = .ok (.list args))) ∧
    (∀ name args other others, PlainCall name args → PlainCall other others →
      line name args = line other others → name = other ∧ args = others) ∧
    ∀ recorder : Recorder, recorder.trace ≠ [] →
      (∀ text ∈ recorder.trace,
        (∃ name args, PlainCall name args ∧ line name args = .ok text) ∨ '\n' ∉ text.toList) →
      splitLines recorder.scheduled = recorder.trace := by
  refine ⟨fun name args call => ?_, fun _ _ _ _ => line_injective, fun recorder some each => ?_⟩
  · obtain ⟨shown, known, spelt⟩ := line_spelt call
    refine ⟨_, known, line_oneLine call known, fun bare => if_pos bare, fun some => ?_⟩
    exact ⟨shown, if_neg some, read_of_spelt spelt⟩
  · apply splitLines_intercalate some
    intro text member
    rcases each text member with ⟨name, args, call, known⟩ | plain
    · exact no_feed (line_oneLine call known)
    · exact plain

theorem say_plain : PlainCall "say" [.text "a\n\"b\", ", .list [.int (-5), .null]] where
  identifier := by decide +kernel
  plain := by
    intro arg member
    simp at member
    rcases member with rfl | rfl
    · exact .text _
    · refine .list _ fun item inside => ?_
      simp at inside
      rcases inside with rfl | rfl
      · have few : 10 ^ 1 ≤ 10 ^ digitBound := Nat.pow_le_pow_right (by decide) (by decide)
        exact .int _ (Nat.lt_of_lt_of_le (by decide) few)
      · exact .null

theorem lines_identify_say : ∃ text,
    line "say" [.text "a\n\"b\", ", .list [.int (-5), .null]] = .ok text ∧ OneLine text ∧
    splitLines (Recorder.mk true 1 [text, "step passed"] none).scheduled = [text, "step passed"] := by
  obtain ⟨text, known, oneLine, -⟩ := lines_identify.1 _ _ say_plain
  refine ⟨text, known, oneLine, lines_identify.2.2 _ (by simp) fun other member => ?_⟩
  simp at member
  rcases member with rfl | rfl
  · exact .inl ⟨_, _, say_plain, known⟩
  · exact .inr (by decide)

end Actor

end FeatureRunner

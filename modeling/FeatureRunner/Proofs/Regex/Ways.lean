import FeatureRunner.Regex
import Mathlib.Tactic.Common

/-!
The ways in which an expression matches from a place, as the list of the places where it may go on,
in the order in which they are tried. A matcher with a continuation finds the first way from which
the continuation succeeds.
-/

namespace FeatureRunner.Regex
open FeatureRunner.Text

def oneWays (accepts : Char → Bool) (cursor : Cursor) : List Cursor :=
  match cursor.rest with
  | [] => []
  | c :: rest =>
    if accepts c then [{ cursor with position := cursor.position + 1, rest }] else []

def iterateWays (greedy : Bool) (least : Nat) (most : Option Nat) (body : Cursor → List Cursor) :
    Nat → Nat → Option Nat → Cursor → List Cursor
  | 0, _, _ => fun _ => []
  | fuel + 1, count, last => fun cursor =>
    let again := fun last => (body cursor).flatMap fun after =>
      iterateWays greedy least most body fuel (count + 1) last after
    let further := most.all (count < ·) && last != some cursor.position
    if count < least then again last
    else if greedy then (if further then again (some cursor.position) else []) ++ [cursor]
    else cursor :: if further then again (some cursor.position) else []

def ways (ignoreCase : Bool) : Regex → Cursor → List Cursor
  | empty => fun cursor => [cursor]
  | char c => oneWays fun d => if ignoreCase then (letterVariants d).contains c else d == c
  | any => oneWays (· != '\n')
  | named kind negated => oneWays fun c => itemHolds ignoreCase c (.named kind negated)
  | set negated items => oneWays (setHolds ignoreCase negated items)
  | start => fun cursor => if cursor.position == 0 then [cursor] else []
  | finish => fun cursor =>
    if cursor.rest.isEmpty || cursor.rest == ['\n'] then [cursor] else []
  | group index body => fun cursor => (ways ignoreCase body cursor).map fun after =>
      { after with captures :=
          (index, cursor.rest.take (after.position - cursor.position)) :: after.captures }
  | seq first second => fun cursor =>
    (ways ignoreCase first cursor).flatMap (ways ignoreCase second)
  | alt first second => fun cursor => ways ignoreCase first cursor ++ ways ignoreCase second cursor
  | loop greedy least most body => fun cursor =>
    iterateWays greedy least most (ways ignoreCase body) (least + cursor.rest.length + 2) 0 none
      cursor

theorem findSome?_flatMap {α β γ : Type} (list : List α) (branch : α → List β) (f : β → Option γ) :
    (list.flatMap branch).findSome? f = list.findSome? fun a => (branch a).findSome? f := by
  induction list with
  | nil => rfl
  | cons a rest ih =>
    rw [List.flatMap_cons, List.findSome?_append, ih, List.findSome?_cons]
    cases (branch a).findSome? f <;> rfl

theorem findSome?_single {β : Type} (cursor : Cursor) (next : Cursor → Option β) :
    [cursor].findSome? next = next cursor := by
  rw [List.findSome?_cons]
  cases next cursor <;> rfl

/-- A matcher goes on as its ways say. -/
def Follows (matcher : Matcher) (branch : Cursor → List Cursor) : Prop :=
  ∀ cursor next, matcher cursor next = (branch cursor).findSome? next

theorem one_follows (accepts : Char → Bool) : Follows (one accepts) (oneWays accepts) := by
  intro cursor next
  unfold one oneWays
  cases cursor.rest with
  | nil => rfl
  | cons c rest =>
    by_cases accepted : accepts c
    · simp only [accepted, if_true]
      exact (findSome?_single _ next).symm
    · simp [accepted]

theorem ite_follows (condition : Cursor → Bool) :
    Follows (fun cursor next => if condition cursor then next cursor else none)
      (fun cursor => if condition cursor then [cursor] else []) := by
  intro cursor next
  by_cases holds : condition cursor
  · simp only [holds, if_true]
    exact (findSome?_single cursor next).symm
  · simp [holds]

theorem iterate_follows {body : Matcher} {branch : Cursor → List Cursor}
    (follows : Follows body branch) (greedy : Bool) (least : Nat) (most : Option Nat)
    (fuel count : Nat) (last : Option Nat) :
    Follows (iterate greedy least most body fuel count last)
      (iterateWays greedy least most branch fuel count last) := by
  induction fuel generalizing count last with
  | zero => intro cursor next; rfl
  | succ fuel ih =>
    intro cursor next
    have again (last : Option Nat) : (body cursor fun after =>
        iterate greedy least most body fuel (count + 1) last after next) =
        ((branch cursor).flatMap fun after =>
          iterateWays greedy least most branch fuel (count + 1) last after).findSome? next := by
      rw [follows, findSome?_flatMap]
      exact congrArg (List.findSome? · _) (funext fun after => ih (count + 1) last after next)
    unfold iterate iterateWays
    simp only [again]
    generalize (most.all (count < ·) && last != some cursor.position) = further
    split
    · rfl
    · cases greedy with
      | true =>
        simp only [if_true, List.findSome?_append, findSome?_single]
        cases further with
        | true =>
          simp only [if_true]
          generalize List.findSome? next (List.flatMap _ _) = found
          cases found <;> rfl
        | false => rfl
      | false =>
        simp only [Bool.false_eq_true, if_false, List.findSome?_cons]
        cases next cursor <;> cases further <;> rfl

/-- The continuation succeeds from the first way from which it can. -/
theorem matchFrom_follows (ignoreCase : Bool) (regex : Regex) :
    Follows (matchFrom ignoreCase regex) (ways ignoreCase regex) := by
  induction regex with
  | empty => exact fun cursor next => (findSome?_single cursor next).symm
  | char c => exact one_follows _
  | any => exact one_follows _
  | named kind negated => exact one_follows _
  | set negated items => exact one_follows _
  | start => exact ite_follows (·.position == 0)
  | finish => exact ite_follows fun cursor => cursor.rest.isEmpty || cursor.rest == ['\n']
  | group index body ih =>
    intro cursor next
    unfold matchFrom ways
    rw [List.findSome?_map]
    exact ih cursor _
  | seq first second ih ih' =>
    intro cursor next
    unfold matchFrom ways
    rw [findSome?_flatMap, ih]
    exact congrArg (List.findSome? · _) (funext fun middle => ih' middle next)
  | alt first second ih ih' =>
    intro cursor next
    unfold matchFrom ways
    rw [List.findSome?_append, ih, ih']
    cases (ways ignoreCase first cursor).findSome? next <;> rfl
  | loop greedy least most body ih => exact fun cursor => iterate_follows ih _ _ _ _ _ _ cursor

end FeatureRunner.Regex

import FeatureRunner.Script.Program
import Mathlib.Data.List.Forall2
import Mathlib.Data.List.Induction
import Mathlib.Data.List.Nodup

/-!
The views of a table. Both maps that a table can be viewed as are built by putting one entry after the
other, so a key stands where it occurs first and holds what it occurs with last. Where every row has a cell
for each heading and no heading is repeated, nothing is lost.

Main statement: `Table.views_lossless`.
-/

namespace FeatureRunner

/-! ## Maps that are built entry by entry -/

namespace TextMap

variable {map : TextMap} {key text asked : String} {entries : List (String × String)}

def keys (map : TextMap) : List String :=
  map.map Prod.fst

theorem get?_cons (entry : String × String) (rest : TextMap) (asked : String) :
    get? (entry :: rest) asked = if entry.1 = asked then some entry.2 else get? rest asked := by
  by_cases found : entry.1 = asked <;> simp [get?, found]

theorem keys_put : (map.put key text).keys =
    if key ∈ map.keys then map.keys else map.keys ++ [key] := by
  induction map with
  | nil => rfl
  | cons entry rest ih =>
    rw [put]
    by_cases known : entry.1 = key
    · simp [known, keys]
    · by_cases later : key ∈ keys rest <;> simp_all [keys, Ne.symm known]

theorem get?_put : (map.put key text).get? asked =
    if key = asked then some text else map.get? asked := by
  induction map with
  | nil => simp [put, get?_cons]
  | cons entry rest ih =>
    rw [put]
    by_cases known : entry.1 = key
    · by_cases found : key = asked <;> simp [known, found, get?_cons]
    · rw [if_neg (by simpa using known), get?_cons, get?_cons, ih]
      by_cases found : key = asked <;> simp_all

theorem ofList_concat (entry : String × String) :
    ofList (entries ++ [entry]) = (ofList entries).put entry.1 entry.2 := by
  simp [ofList]

theorem keys_ofList (entries : List (String × String)) :
    (ofList entries).keys = (entries.map Prod.fst).eraseDups := by
  induction entries using List.reverseRecOn with
  | nil => rfl
  | append_singleton entries entry ih =>
    rw [ofList_concat, keys_put, ih, List.map_append, List.eraseDups_append]
    by_cases known : entry.1 ∈ entries.map Prod.fst <;>
      simp_all [List.removeAll, List.eraseDups_cons]

theorem get?_ofList {index : Nat} (found : entries[index]? = some (key, text))
    (last : key ∉ (entries.map Prod.fst).drop (index + 1)) :
    (ofList entries).get? key = some text := by
  induction entries using List.reverseRecOn with
  | nil => simp at found
  | append_singleton entries entry ih =>
    rw [ofList_concat, get?_put]
    rcases Nat.lt_or_ge index entries.length with before | behind
    · rw [List.getElem?_append_left before] at found
      -- The entry at the end comes after the last one with this key.
      rw [List.map_append, List.drop_append_of_le_length (by simpa using Nat.succ_le_of_lt before),
        List.mem_append, not_or] at last
      have differs : entry.1 ≠ key := by simpa using Ne.symm (by simpa using last.2)
      rw [if_neg differs]
      exact ih found last.1
    · rw [List.getElem?_append_right behind, List.getElem?_singleton] at found
      split at found
      · cases found
        exact if_pos rfl
      · cases found

/-- Keys with a text beside each as a map: a key stands where it occurs first, with the text beside its
last occurrence. -/
structure Gathers (names texts : List String) (map : TextMap) : Prop where
  keys : map.keys = names.eraseDups
  last : ∀ index key, names[index]? = some key → key ∉ names.drop (index + 1) →
    ∃ text, texts[index]? = some text ∧ map.get? key = some text

theorem gathers_zip {names texts : List String} (beside : texts.length = names.length) :
    Gathers names texts (ofList (names.zip texts)) := by
  have firsts : (names.zip texts).map Prod.fst = names := List.map_fst_zip (Nat.le_of_eq beside.symm)
  refine ⟨(keys_ofList _).trans (congrArg _ firsts), fun index key found last => ?_⟩
  have within : index < texts.length := beside ▸ (List.getElem?_eq_some_iff.1 found).1
  refine ⟨texts[index], List.getElem?_eq_getElem within, ?_⟩
  apply get?_ofList (List.getElem?_zip_eq_some.2 ⟨found, List.getElem?_eq_getElem within⟩)
  rwa [firsts]

theorem Gathers.read {names texts : List String} (gathers : Gathers names texts map)
    (beside : texts.length = names.length) (distinct : names.Nodup) :
    names.map map.get? = texts.map some := by
  apply List.ext_getElem (by simp [beside])
  intro index within _
  have small : index < names.length := by simpa using within
  have last : names[index] ∉ names.drop (index + 1) := by
    intro later
    obtain ⟨further, bound, same⟩ := List.mem_drop_iff_getElem.1 later
    have := distinct.getElem_inj_iff.1 same
    omega
  obtain ⟨text, beside, read⟩ := gathers.last index _ (List.getElem?_eq_getElem small) last
  obtain ⟨_, rfl⟩ := List.getElem?_eq_some_iff.1 beside
  simpa using read

end TextMap

/-! ## Tables -/

namespace Table
open TextMap

/-- A table whose rows have a cell for each heading. -/
def Regular (table : Table) : Prop :=
  ∀ row ∈ table.rows, row.length = table.headings.length

/-- The rows of a table, the headings first, made of the headings and the map of each row. -/
def restore (headings : List String) (maps : List TextMap) : List (List String) :=
  headings :: maps.map fun map => headings.filterMap map.get?

variable {table : Table}

theorem hashes_gather (regular : table.Regular) :
    List.Forall₂ (Gathers table.headings) table.rows table.hashes := by
  rw [hashes, List.forall₂_map_right_iff, List.forall₂_same]
  exact fun row member => gathers_zip (regular row member)

theorem hashes_read (regular : table.Regular) (distinct : table.headings.Nodup) :
    table.hashes.map (fun map => table.headings.map map.get?) = table.rows.map (·.map some) := by
  rw [hashes, List.map_map]
  apply List.map_congr_left
  intro row member
  exact (gathers_zip (regular row member)).read (regular row member) distinct

theorem restore_hashes (regular : table.Regular) (distinct : table.headings.Nodup) :
    restore table.headings table.hashes = table.raw := by
  have read := congrArg (List.map (List.filterMap id)) (hashes_read regular distinct)
  simpa [restore, raw, List.filterMap_map, Function.comp_def] using read

theorem rowsHash?_eq_none : table.rowsHash? = none ↔ ∃ row ∈ table.raw, row.length ≠ 2 := by
  simp [rowsHash?]

theorem exists_pairs {rows : List (List String)} (two : ∀ row ∈ rows, row.length = 2) :
    ∃ pairs : List (String × String), rows = pairs.map fun pair => [pair.1, pair.2] := by
  refine ⟨rows.map fun row => (row.getD 0 "", row.getD 1 ""), ?_⟩
  rw [List.map_map, eq_comm]
  refine (List.map_congr_left fun row member => ?_).trans rows.map_id
  obtain ⟨first, second, rfl⟩ := List.length_eq_two.1 (two row member)
  rfl

theorem rowsHash?_pairs {pairs : List (String × String)}
    (rows : table.raw = pairs.map fun pair => [pair.1, pair.2]) :
    table.rowsHash? = some (.ofList pairs) := by
  have same : (fun row => (row.getD 0 "", row.getD 1 "")) ∘ (fun pair : String × String =>
      [pair.1, pair.2]) = id := rfl
  rw [rowsHash?, rows, List.map_map, same, List.map_id]
  exact if_pos (by simp)

theorem tableView_rowsHash (table : Table) : Value.tableView "rows_hash" (.table table) =
    table.rowsHash?.elim (.error .tableShape) fun map => .ok (TextMap.value map) := by
  simp only [Value.tableView]
  cases table.rowsHash? <;> rfl

/-- In a regular table each row is viewed as a map from the headings, and distinct headings lead back to the
rows. The view by the first column fails exactly where there are not two cells in every row, and is a map
from the first cells to the second ones otherwise. -/
theorem views_lossless (table : Table) :
    (table.Regular →
      List.Forall₂ (Gathers table.headings) table.rows table.hashes ∧
      (table.headings.Nodup →
        table.hashes.map (fun map => table.headings.map map.get?) = table.rows.map (·.map some) ∧
        restore table.headings table.hashes = table.raw)) ∧
    (Value.tableView "rows_hash" (.table table) = .error .tableShape ↔
      ∃ row ∈ table.raw, row.length ≠ 2) ∧
    ((∀ row ∈ table.raw, row.length = 2) → ∃ (pairs : List (String × String)) (map : TextMap),
      table.raw = pairs.map (fun pair => [pair.1, pair.2]) ∧
      Value.tableView "rows_hash" (.table table) = .ok (TextMap.value map) ∧
      Gathers (pairs.map Prod.fst) (pairs.map Prod.snd) map) := by
  refine ⟨fun regular => ⟨hashes_gather regular, fun distinct =>
    ⟨hashes_read regular distinct, restore_hashes regular distinct⟩⟩, ?_, fun two => ?_⟩
  · rw [tableView_rowsHash, ← rowsHash?_eq_none]
    cases table.rowsHash? <;> simp
  · obtain ⟨pairs, rows⟩ := exists_pairs two
    refine ⟨pairs, .ofList pairs, rows, by rw [tableView_rowsHash, rowsHash?_pairs rows]; rfl, ?_⟩
    have columns : pairs = (pairs.map Prod.fst).zip (pairs.map Prod.snd) := List.zip_of_prod rfl rfl
    have gathers : Gathers (pairs.map Prod.fst) (pairs.map Prod.snd)
        (.ofList ((pairs.map Prod.fst).zip (pairs.map Prod.snd))) := gathers_zip (by simp)
    rwa [← columns] at gathers

/-- A regular table of two columns in which a first cell is repeated. -/
def prices : Table :=
  ⟨["item", "price"], [["tea", "3"], ["milk", "1"], ["tea", "4"]]⟩

theorem views_lossless_prices : (prices.Regular ∧ prices.headings.Nodup ∧
      ∀ row ∈ prices.raw, row.length = 2) ∧
    restore prices.headings prices.hashes = prices.raw ∧
    ∃ (pairs : List (String × String)) (map : TextMap),
      prices.raw = pairs.map (fun pair => [pair.1, pair.2]) ∧
      Value.tableView "rows_hash" (.table prices) = .ok (TextMap.value map) ∧
      Gathers (pairs.map Prod.fst) (pairs.map Prod.snd) map := by
  have regular : prices.Regular := by unfold Regular; decide
  have distinct : prices.headings.Nodup := by decide
  have two : ∀ row ∈ prices.raw, row.length = 2 := by decide
  obtain ⟨byHeading, -, byFirst⟩ := views_lossless prices
  exact ⟨⟨regular, distinct, two⟩, ((byHeading regular).2 distinct).2, byFirst two⟩

example : prices.rowsHash? = some [("item", "price"), ("tea", "4"), ("milk", "1")] := rfl

end Table

end FeatureRunner

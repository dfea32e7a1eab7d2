import FeatureRunner.Proofs.Config.Document
import FeatureRunner.Proofs.Config.Walk

/-!
What the mapping of a file makes of the built-in configuration: under every dotted key, what the
file says, united with what is built in where both hold mappings.

Main statement: `Config.loadWith_layers`.
-/

namespace FeatureRunner
open FeatureRunner.Value

/-! ## Unions -/

namespace Value

mutual

/-- The union of two values: two mappings are united key by key, and else the second value
stands. -/
def united : Value → Value → Value
  | .dict entries, .dict updates =>
    .dict (unitedEach entries updates ++
      updates.filter fun update => (held? entries update.1.key).isNone)
  | _, update => update

/-- The entries of a mapping, each united with what another mapping holds under its key. -/
def unitedEach : List (Value × Value) → List (Value × Value) → List (Value × Value)
  | [], _ => []
  | (key, value) :: rest, updates =>
    let both := match held? updates key.key with
      | some update => united value update
      | none => value
    (key, both) :: unitedEach rest updates

end

theorem unitedEach_eq (entries updates : List (Value × Value)) :
    unitedEach entries updates = entries.map fun entry =>
      (entry.1, match held? updates entry.1.key with
        | some update => united entry.2 update
        | none => entry.2) := by
  induction entries with
  | nil => rfl
  | cons entry rest ih => rw [unitedEach, ih, List.map_cons]

end Value

namespace Config

variable {base updates : List (Value × Value)}

/-! ## One mapping over another -/

theorem overlay_leaf {value : Value} (single : ∀ entries, value ≠ .dict entries)
    (base : Option Value) : overlay base value = value := by
  cases value with
  | dict entries => exact absurd rfl (single entries)
  | _ => rfl

theorem overlay_of_unmapped {base : Option Value} (unmapped : ∀ entries, base ≠ some (.dict entries))
    (value : Value) : overlay base value = value := by
  cases value with
  | dict updates =>
    cases base with
    | none => rfl
    | some base =>
      cases base with
      | dict entries => exact absurd rfl (unmapped entries)
      | _ => rfl
  | _ => rfl

theorem overlay_none (value : Value) : overlay none value = value :=
  overlay_of_unmapped (by simp) value

/-- A key of the second mapping holds its value laid over that of the first mapping. -/
theorem held?_merge (nodup : (keys updates).Nodup) (name : Key) :
    held? (merge base updates) name =
      match held? updates name with
      | some value => some (overlay (held? base name) value)
      | none => held? base name := by
  induction updates generalizing base with
  | nil => rfl
  | cons update rest ih =>
    obtain ⟨apart, nodup⟩ := List.nodup_cons.1 nodup
    rw [merge, ih nodup, held?_cons, held?_alter]
    by_cases asked : update.1.key = name
    · have unknown : held? rest name = none := held?_eq_none.2 (asked ▸ apart)
      simp [asked, unknown]
    · simp [asked]

/-- The entries of a mapping keep their places, and new ones follow in their own order. -/
theorem merge_eq (nodup : (keys base).Nodup) (apart : (keys updates).Nodup) :
    merge base updates =
      base.map (fun entry => (entry.1, match held? updates entry.1.key with
        | some update => overlay (some entry.2) update
        | none => entry.2)) ++
      updates.filter fun update => (held? base update.1.key).isNone := by
  induction updates generalizing base with
  | nil => simp [merge]
  | cons update rest ih =>
    obtain ⟨fresh, apart⟩ := List.nodup_cons.1 apart
    have unknown : held? rest update.1.key = none := held?_eq_none.2 fresh
    -- No later update has this key: later ones find what they would have found before.
    have later : rest.filter (fun other => (held? (alter update.1 (fun old => overlay old update.2)
        base) other.1.key).isNone) = rest.filter fun other => (held? base other.1.key).isNone := by
      refine List.filter_congr fun other member => ?_
      have differs : update.1.key ≠ other.1.key := fun same =>
        fresh (List.mem_map.2 ⟨other, member, same.symm⟩)
      rw [held?_alter, if_neg differs]
    rw [merge, ih (nodup_alter nodup) apart, later]
    cases known : held? base update.1.key with
    | none =>
      have differs : ∀ entry ∈ base, update.1.key ≠ entry.1.key := fun entry member same =>
        held?_eq_none.1 known (List.mem_map.2 ⟨entry, member, same.symm⟩)
      rw [alter_of_unknown known, List.map_append, List.append_assoc, List.map_singleton, unknown,
        List.filter_cons_of_pos (by simp [known]), overlay_none]
      congr 1
      exact List.map_congr_left fun entry member => by
        rw [held?_cons, if_neg (differs entry member)]
    | some old =>
      rw [alter_of_known nodup (by simp [known]), List.map_map,
        List.filter_cons_of_neg (by simp [known])]
      congr 1
      refine List.map_congr_left fun entry _ => ?_
      by_cases same : entry.1.key = update.1.key
      · simp [same, unknown, held?_cons]
      · simp [same, held?_cons, Ne.symm same]

/-- Laying one value over another unites them. -/
theorem overlay_eq_united {value : Value} (keyed : value.Keyed) {update : Value}
    (apart : update.Keyed) : overlay (some value) update = united value update := by
  induction keyed generalizing update with
  | @leaf value single =>
    cases update with
    | dict updates =>
      cases value with
      | dict entries => exact absurd rfl (single entries)
      | _ => rfl
    | _ => cases value <;> rfl
  | @dict entries nodup values ih =>
    cases apart with
    | @leaf update single => cases update with
      | dict updates => exact absurd rfl (single updates)
      | _ => rfl
    | @dict updates fresh others =>
      have each (entry : Value × Value) (member : entry ∈ entries) :
          (match held? updates entry.1.key with
            | some update => overlay (some entry.2) update
            | none => entry.2) =
          match held? updates entry.1.key with
            | some update => united entry.2 update
            | none => entry.2 := by
        cases found : held? updates entry.1.key with
        | none => rfl
        | some update => exact ih entry member ((Keyed.dict fresh others).of_held? found)
      rw [overlay, merge_eq nodup fresh, united, unitedEach_eq]
      congr 2
      exact List.map_congr_left fun entry member => by rw [each entry member]

/-! ## A mapping laid over once more -/

theorem merge_eq_self (absorbed : ∀ update ∈ updates, ∃ value,
    held? base update.1.key = some value ∧ overlay (some value) update.2 = value) :
    merge base updates = base := by
  induction updates with
  | nil => rfl
  | cons update rest ih =>
    obtain ⟨⟨value, found, same⟩, later⟩ := List.forall_mem_cons.1 absorbed
    rw [merge, alter_of_held? found same, ih later]

theorem overlay_overlay {value : Value} (keyed : value.Keyed) (base : Option Value) :
    overlay (some (overlay base value)) value = overlay base value := by
  induction keyed generalizing base with
  | leaf single => rw [overlay_leaf single, overlay_leaf single]
  | @dict updates nodup values ih =>
    -- What no mapping is laid over holds the values themselves, and these are laid over nothing.
    have alone : overlay (some (.dict updates)) (.dict updates) = .dict updates := by
      rw [overlay, merge_eq_self fun update member => ⟨update.2, held?_of_mem nodup member, ?_⟩]
      simpa [overlay_none] using ih update member none
    by_cases mapped : ∃ entries, base = some (.dict entries)
    · obtain ⟨entries, rfl⟩ := mapped
      rw [overlay, overlay, merge_eq_self fun update member =>
        ⟨overlay (held? entries update.1.key) update.2, ?_, ih update member _⟩]
      rw [held?_merge nodup, held?_of_mem nodup member]
    · rw [overlay_of_unmapped (not_exists.1 mapped), alone]

/-- Merging the same mapping a second time changes nothing. -/
theorem merge_merge (keyed : (Value.dict updates).Keyed) :
    merge (merge base updates) updates = merge base updates := by
  simpa [overlay] using overlay_overlay keyed (some (.dict base))

/-! ## Walks -/

/-- A walk through a value laid over another: it ends as in the upper one, and where that lacks a
part it goes on as in the lower one. -/
theorem walk?_overlay {value : Value} (keyed : value.Keyed) (base : Option Value)
    (parts : List String) :
    walk? parts (overlay base value) =
      match trail parts value with
      | .found inner => some (overlay (base.bind (walk? parts)) inner)
      | .blocked => none
      | .absent => base.bind (walk? parts) := by
  induction parts generalizing value base with
  | nil =>
    have same : base.bind (walk? []) = base := by cases base <;> rfl
    rw [trail, same, walk?]
  | cons part rest ih =>
    cases keyed with
    | @leaf value single =>
      cases value with
      | dict updates => exact absurd rfl (single updates)
      | _ => rfl
    | @dict updates nodup values =>
      have inner {value : Value} (found : held? updates (.text part) = some value) : value.Keyed :=
        (Keyed.dict nodup values).of_held? found
      by_cases mapped : ∃ entries, base = some (.dict entries)
      · obtain ⟨entries, rfl⟩ := mapped
        have below : (some (Value.dict entries)).bind (walk? (part :: rest)) =
            (held? entries (.text part)).bind (walk? rest) := by
          rw [Option.bind_some, walk?, field?_eq_held?]
          cases held? entries (.text part) <;> rfl
        rw [below, overlay, walk?, trail, field?_eq_held?, field?_eq_held?, held?_merge nodup]
        cases found : held? updates (.text part) with
        | some value => exact ih (inner found) _
        | none => cases held? entries (.text part) <;> rfl
      · have below : base.bind (walk? (part :: rest)) = none := by
          cases base with
          | none => rfl
          | some value =>
            cases value with
            | dict entries => exact absurd ⟨entries, rfl⟩ mapped
            | _ => rfl
        rw [below, overlay_of_unmapped (not_exists.1 mapped), walk?, trail, field?_eq_held?]
        cases found : held? updates (.text part) with
        | some value => simpa [overlay_none] using ih (inner found) none
        | none => rfl

theorem keyed_of_walk? {parts : List String} {value found : Value} (keyed : value.Keyed)
    (led : walk? parts value = some found) : found.Keyed := by
  induction parts generalizing value with
  | nil =>
    obtain rfl := Option.some.inj led
    exact keyed
  | cons part rest ih =>
    cases value with
    | dict entries =>
      rw [walk?, field?_eq_held?] at led
      cases held : held? entries (.text part) with
      | some inner =>
        rw [held] at led
        exact ih (keyed.of_held? held) led
      | none =>
        rw [held] at led
        cases led
    | _ => cases led

/-! ## The configuration of a file -/

theorem keyed_defaults : (Value.dict defaults).Keyed := by
  have leaf {entries : List (Value × Value)} (nodup : (keys entries).Nodup)
      (leaves : ∀ entry ∈ entries, ∀ inner, entry.2 ≠ .dict inner) : (Value.dict entries).Keyed :=
    .dict nodup fun entry member => .leaf (leaves entry member)
  refine .dict (by decide) ?_
  simp only [defaults, List.forall_mem_cons, List.not_mem_nil, false_implies, implies_true, and_true]
  exact ⟨leaf (by decide) (by simp), leaf (by decide) (by simp), leaf .nil (by simp),
    leaf (by decide) (by simp)⟩

/-- What a key of a configuration gives, by where its parts lead in the mapping of the file. -/
structure Layered (entries : List (Value × Value)) (parts : List String)
    (default result : Value) : Prop where
  /-- What is no mapping stands as the file has it. -/
  value : ∀ value, trail parts (.dict entries) = .found value →
    (∀ inner, value ≠ .dict inner) → result = value
  /-- A mapping is united with the built-in one, if there is one. -/
  mapping : ∀ inner, trail parts (.dict entries) = .found (.dict inner) →
    result = match walk? parts (.dict defaults) with
      | some (.dict builtIn) => united (.dict builtIn) (.dict inner)
      | _ => .dict inner
  /-- What is no mapping hides what is built in below it. -/
  blocked : trail parts (.dict entries) = .blocked → result = default
  /-- Where the file says nothing, what is built in stands. -/
  absent : trail parts (.dict entries) = .absent →
    result = (walk? parts (.dict defaults)).getD default
  /-- There is nothing below a mapping that replaced what was no mapping. -/
  replaced : trail parts (.dict entries) = .absent → ∀ front inner, front <+: parts →
    walk? front (.dict entries) = some (.dict inner) →
    (∀ builtIn, walk? front (.dict defaults) ≠ some (.dict builtIn)) → result = default

/-- What a mapping that was laid over the defaults gives under a key. -/
theorem layered_merge {entries : List (Value × Value)} (keyed : (Value.dict entries).Keyed)
    (parts : List String) (default : Value) :
    Layered entries parts default ((walk? parts (.dict (merge defaults entries))).getD default) := by
  have walk := walk?_overlay keyed (some (.dict defaults)) parts
  rw [overlay, Option.bind_some] at walk
  refine ⟨fun value led single => ?_, fun inner led => ?_, fun led => ?_, fun led => ?_,
    fun led front inner before mapped replaced => ?_⟩
  · rw [walk, led]
    exact overlay_leaf single _
  · rw [walk, led, Option.getD_some]
    have apart : (Value.dict inner).Keyed := keyed_of_walk? keyed (walk?_eq_some.2 led)
    split
    · next builtIn stands =>
      rw [stands]
      exact overlay_eq_united (keyed_of_walk? keyed_defaults stands) apart
    · next other => exact overlay_of_unmapped other _
  · rw [walk, led, Option.getD_none]
  · rw [walk, led]
  · obtain ⟨back, rfl⟩ := before
    have further : back ≠ [] := by
      rintro rfl
      have found := walk?_eq_some.1 mapped
      rw [List.append_nil] at led
      cases led.symm.trans found
    have nothing : walk? (front ++ back) (.dict defaults) = none := by
      rw [walk?_append]
      cases builtIn : walk? front (.dict defaults) with
      | none => rfl
      | some value =>
        exact walk?_of_single (fun entries same => replaced entries (same ▸ builtIn)) further
    rw [walk, led, nothing, Option.getD_none]

theorem path_of_ofFile {read : Path → String → Except Fault Value} {path : Path} {tree : FileTree}
    {config : Config} (made : ofFile read path tree = .ok config) : config.path = path := by
  unfold ofFile at made
  split at made
  · next text file =>
    cases answer : read path text with
    | error fault =>
      rw [answer] at made
      cases made
    | ok value =>
      rw [answer] at made
      cases value with
      | null => exact congrArg Config.path (Except.ok.inj made).symm
      | dict entries => exact congrArg Config.path (Except.ok.inj made).symm
      | _ => cases made
  · split at made
    · cases made
    · exact congrArg Config.path (Except.ok.inj made).symm

theorem ofFile_of_mapping {read : Path → String → Except Fault Value} {path : Path}
    {tree : FileTree} {text : String} {entries : List (Value × Value)}
    (file : tree.read? path = some text) (mapping : read path text = .ok (.dict entries)) :
    ofFile read path tree = .ok ⟨path, merge defaults entries⟩ := by
  simp only [ofFile, file, mapping]
  rfl

theorem eq_of_validate {raw config : Config} (valid : validate raw = .ok config) : raw = config := by
  unfold validate at valid
  dsimp only at valid
  split at valid
  · exact Except.ok.inj valid
  · cases valid

/-- The law of layers: `read` is any reader that gives values in whose mappings each key stands
once. -/
theorem loadWith_layers {read : Path → String → Except Fault Value} {places : Places}
    {tree : FileTree} {given : Option String} {config : Config} {text : String}
    {entries : List (Value × Value)} (reader : ∀ path text, Yields Keyed (read path text))
    (loaded : loadWith read places tree given = .ok config)
    (file : tree.read? config.path = some text)
    (mapping : read config.path text = .ok (.dict entries)) :
    (∀ key default, Layered entries (keyParts key) default (config.getD key default)) ∧
      merge config.entries entries = config.entries := by
  have keyed : (Value.dict entries).Keyed := reader _ _ _ mapping
  have layered : config.entries = merge defaults entries := by
    cases made : ofFile read (chosenPath places tree given) tree with
    | error fault =>
      rw [loadWith, made] at loaded
      cases loaded
    | ok raw =>
      rw [loadWith, made] at loaded
      obtain rfl := eq_of_validate loaded
      have path := path_of_ofFile made
      rw [← path, ofFile_of_mapping file mapping] at made
      exact congrArg Config.entries (Except.ok.inj made).symm
  refine ⟨fun key default => ?_, ?_⟩
  · rw [getD, get?, layered]
    exact layered_merge keyed _ _
  · rw [layered]
    exact merge_merge keyed

/-- A file with a text for a text, nothing for a list, a mapping for a text and a new mapping. -/
def strictTree : FileTree :=
  ⟨⟨"/", ["work"]⟩, [(["work", "c.yaml"],
    "steps:\n  whitespace: strict\n  paths:\nreport:\n  output_dir: \x7bhtml: out\x7d\nshop: [1]\n")]⟩

/-- What it holds. -/
def strictEntries : List (Value × Value) :=
  [(.text "steps", .record [("whitespace", .text "strict"), ("paths", .null)]),
   (.text "report", .record [("output_dir", .record [("html", .text "out")])]),
   (.text "shop", .list [.int 1])]

theorem loadWith_layers_strict : ∃ config text entries,
    load ⟨⟨"/", ["work"]⟩, ⟨"/", ["home"]⟩, none⟩ strictTree (some "c.yaml") = .ok config ∧
      strictTree.read? config.path = some text ∧
      readFile config.path text = .ok (.dict entries) ∧
      (Value.dict entries).same (.dict strictEntries) = true ∧
      (∀ key default, Layered entries (keyParts key) default (config.getD key default)) ∧
      merge config.entries entries = config.entries := by
  have loads : (load ⟨⟨"/", ["work"]⟩, ⟨"/", ["home"]⟩, none⟩ strictTree
      (some "c.yaml")).toOption.any (fun config => config.path = ⟨"", ["c.yaml"]⟩) = true := by
    decide +kernel
  have reads : ((strictTree.read? ⟨"", ["c.yaml"]⟩).bind fun text =>
      (readFile ⟨"", ["c.yaml"]⟩ text).toOption).any (·.same (.dict strictEntries)) = true := by
    decide +kernel
  have ok {α : Type} {answer : Except Fault α} {value : α} (found : answer.toOption = some value) :
      answer = .ok value := by
    cases answer with
    | ok other => exact congrArg Except.ok (Option.some.inj found)
    | error fault => cases found
  obtain ⟨config, loaded, path⟩ := (Option.any_eq_true _ _).1 loads
  obtain ⟨value, read, same⟩ := (Option.any_eq_true _ _).1 reads
  obtain ⟨text, file, read⟩ := Option.bind_eq_some_iff.1 read
  rw [← of_decide_eq_true path] at file read
  cases value with
  | dict entries =>
    exact ⟨config, text, entries, ok loaded, file, ok read, same,
      loadWith_layers readFile_keyed (ok loaded) file (ok read)⟩
  | _ => cases same

end Config
end FeatureRunner

import FeatureRunner.Value.Keyed

/-!
What is found under a key of a mapping after the value of some key was changed.
-/

namespace FeatureRunner.Value

variable {key value : Value} {change : Option Value → Value} {entries : List (Value × Value)}

theorem same_text {name : String} : key.same (.text name) = true ↔ key = .text name := by
  cases key <;> simp [same, number?]

@[simp] theorem key_text (name : String) : (text name).key = .text name := rfl

theorem key_eq_text {name : String} : key.key = .text name ↔ key = .text name := by
  cases key with
  | float value => cases value <;> simp [Value.key]
  | _ => simp [Value.key]

/-- What a mapping knows its keys by. -/
def keys (entries : List (Value × Value)) : List Key :=
  entries.map fun entry => entry.1.key

/-! ## Lookups -/

@[simp] theorem held?_nil (name : Key) : held? [] name = none := rfl

theorem held?_cons (entry : Value × Value) (rest : List (Value × Value)) (name : Key) :
    held? (entry :: rest) name = if entry.1.key = name then some entry.2 else held? rest name := by
  rw [held?, List.find?_cons]
  by_cases found : entry.1.key = name
  · simp [found]
  · rw [if_neg found, beq_false_of_ne found]
    rfl

theorem field?_eq_held? (name : String) : field? entries name = held? entries (.text name) := by
  have alike (entry : Value × Value) : entry.1.same (.text name) = (entry.1.key == .text name) := by
    rw [Bool.eq_iff_iff, same_text, beq_iff_eq, key_eq_text]
  rw [field?, lookup?, funext alike, held?]

theorem held?_eq_none {name : Key} :
    held? entries name = none ↔ name ∉ keys entries := by
  simp [held?, keys]

/-- Where each key stands once, an entry is what is found under its key. -/
theorem held?_of_mem (nodup : (keys entries).Nodup)
    {entry : Value × Value} (member : entry ∈ entries) :
    held? entries entry.1.key = some entry.2 := by
  induction entries with
  | nil => cases member
  | cons first rest ih =>
    obtain ⟨apart, nodup⟩ := List.nodup_cons.1 nodup
    rw [held?_cons]
    rcases List.mem_cons.1 member with rfl | later
    · rw [if_pos rfl]
    · have differs : first.1.key ≠ entry.1.key := fun same =>
        apart (List.mem_map.2 ⟨entry, later, same.symm⟩)
      rw [if_neg differs, ih nodup later]

theorem mem_of_held? {name : Key} (found : held? entries name = some value) :
    ∃ entry ∈ entries, entry.1.key = name ∧ entry.2 = value := by
  obtain ⟨entry, first, rfl⟩ := Option.map_eq_some_iff.1 found
  exact ⟨entry, List.mem_of_find?_eq_some first, by simpa using List.find?_some first, rfl⟩

/-! ## Changes -/

theorem held?_alter (name : Key) : held? (alter key change entries) name =
    if key.key = name then some (change (held? entries name)) else held? entries name := by
  induction entries with
  | nil => simp [alter, held?_cons]
  | cons entry rest ih =>
    rw [alter]
    by_cases found : entry.1.key = key.key
    · by_cases asked : key.key = name <;> simp [found, asked, held?_cons]
    · by_cases asked : key.key = name
      · have differs : entry.1.key ≠ name := asked ▸ found
        simp [asked, held?_cons, ih, differs]
      · simp [found, asked, held?_cons, ih]

theorem alter_of_held? (found : held? entries key.key = some value)
    (changed : change (some value) = value) : alter key change entries = entries := by
  induction entries with
  | nil => cases found
  | cons entry rest ih =>
    rw [held?_cons] at found
    rw [alter]
    by_cases known : entry.1.key = key.key
    · obtain rfl : entry.2 = value := by simpa [known] using found
      simp [known, changed]
    · simp [known, ih (by simpa [known] using found)]

theorem alter_of_unknown (unknown : held? entries key.key = none) :
    alter key change entries = entries ++ [(key, change none)] := by
  induction entries with
  | nil => rfl
  | cons entry rest ih =>
    obtain ⟨differs, later⟩ : entry.1.key ≠ key.key ∧ held? rest key.key = none := by
      rw [held?_cons] at unknown
      split at unknown
      · cases unknown
      · next differs => exact ⟨differs, unknown⟩
    simp [alter, differs, ih later]

theorem alter_of_known (nodup : (keys entries).Nodup) (known : (held? entries key.key).isSome) :
    alter key change entries = entries.map fun entry =>
      (entry.1, if entry.1.key = key.key then change (some entry.2) else entry.2) := by
  induction entries with
  | nil => cases known
  | cons entry rest ih =>
    obtain ⟨apart, nodup⟩ := List.nodup_cons.1 nodup
    rw [held?_cons] at known
    rw [alter, List.map_cons]
    by_cases found : entry.1.key = key.key
    · have others : ∀ other ∈ rest, other.1.key ≠ key.key := fun other member same =>
        apart (List.mem_map.2 ⟨other, member, same.trans found.symm⟩)
      have rest_eq : rest.map (fun other => (other.1,
          if other.1.key = key.key then change (some other.2) else other.2)) = rest :=
        (List.map_congr_left fun other member => by rw [if_neg (others other member), id]).trans
          rest.map_id
      rw [if_pos found, if_pos found, rest_eq]
    · rw [if_neg found, if_neg found, ih nodup (by simpa [found] using known)]

theorem keys_alter : keys (alter key change entries) =
    if (held? entries key.key).isSome then keys entries
    else keys entries ++ [key.key] := by
  induction entries with
  | nil => rfl
  | cons entry rest ih =>
    rw [alter, held?_cons]
    by_cases found : entry.1.key = key.key
    · simp [found, keys]
    · simp only [keys, found, ↓reduceIte, List.map_cons] at ih ⊢
      rw [ih]
      split <;> rfl

theorem nodup_alter (nodup : (keys entries).Nodup) :
    (keys (alter key change entries)).Nodup := by
  rw [keys_alter]
  split
  · exact nodup
  · next unknown =>
    have apart := held?_eq_none.1 (Option.not_isSome_iff_eq_none.1 unknown)
    exact List.nodup_append.2 ⟨nodup, List.pairwise_singleton _ _, fun name member _ single same =>
      apart (List.mem_singleton.1 single ▸ same ▸ member)⟩

theorem forall_alter {holds : Value → Prop} (all : ∀ entry ∈ entries, holds entry.2)
    (changed : ∀ old, holds (change old)) : ∀ entry ∈ alter key change entries, holds entry.2 := by
  induction entries with
  | nil => simpa [alter] using changed none
  | cons entry rest ih =>
    obtain ⟨first, later⟩ := List.forall_mem_cons.1 all
    rw [alter]
    split
    · exact List.forall_mem_cons.2 ⟨changed _, later⟩
    · exact List.forall_mem_cons.2 ⟨first, ih later⟩

theorem put_text (name : String) :
    put (.text name) value entries = alter (.text name) (fun _ => value) entries := by
  induction entries with
  | nil => rfl
  | cons entry rest ih =>
    have alike : entry.1.same (.text name) = true ↔ entry.1.key = (text name).key :=
      same_text.trans key_eq_text.symm
    simp only [put, alter, alike, ih]

end FeatureRunner.Value

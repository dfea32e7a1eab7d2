import FeatureRunner.Proofs.Config.Walk

/-!
What putting a value under a dotted key does to a configuration: the value stands there and
everything beside it is as before, or else what is no mapping bars the way and nothing changes. Two
keys that are not one below the other can be put in either order.

Main statement: `Config.assign_law`.
-/

namespace FeatureRunner
open FeatureRunner.Value FeatureRunner.Text

/-! ## Mappings that differ in the order of their entries -/

namespace Value

/-- Entries that differ at most in their order, and so do those of the mappings among them. -/
inductive Rearranged : List (Value × Value) → List (Value × Value) → Prop
  | refl (entries : List (Value × Value)) : Rearranged entries entries
  | cons (entry : Value × Value) {entries others : List (Value × Value)}
    (rest : Rearranged entries others) : Rearranged (entry :: entries) (entry :: others)
  | inside (key : Value) {inner other : List (Value × Value)} (entries : List (Value × Value))
    (value : Rearranged inner other) :
    Rearranged ((key, dict inner) :: entries) ((key, dict other) :: entries)
  | swap (first second : Value × Value) (entries : List (Value × Value))
    (apart : first.1.key ≠ second.1.key) :
    Rearranged (first :: second :: entries) (second :: first :: entries)
  | trans {entries others more : List (Value × Value)} (first : Rearranged entries others)
    (second : Rearranged others more) : Rearranged entries more

/-- Two values that are equal but for the order of entries. -/
inductive Alike : Value → Value → Prop
  | refl (value : Value) : Alike value value
  | dict {entries others : List (Value × Value)} (rearranged : Rearranged entries others) :
    Alike (dict entries) (dict others)

theorem Alike.rel (found : Option Value) : Option.Rel Alike found found := by
  cases found with
  | none => exact .none
  | some value => exact .some (.refl value)

theorem Alike.trans {first second third : Value} (left : Alike first second)
    (right : Alike second third) : Alike first third := by
  cases left with
  | refl value => exact right
  | dict rearranged => cases right with
    | refl value => exact .dict rearranged
    | dict further => exact .dict (rearranged.trans further)

theorem Alike.rel_trans {first second third : Option Value} (left : Option.Rel Alike first second)
    (right : Option.Rel Alike second third) : Option.Rel Alike first third := by
  cases left with
  | none => exact right
  | some left => cases right with
    | some right => exact .some (left.trans right)

theorem Alike.getD {first second : Option Value} (rel : Option.Rel Alike first second)
    (default : Value) : Alike (first.getD default) (second.getD default) := by
  cases rel with
  | none => exact .refl default
  | some alike => exact alike

/-- What stands under a key is alike in mappings that differ in their order. -/
theorem Rearranged.held? {entries others : List (Value × Value)}
    (rearranged : Rearranged entries others) (name : Key) :
    Option.Rel Alike (Value.held? entries name) (Value.held? others name) := by
  induction rearranged with
  | refl entries => exact Alike.rel _
  | cons entry rest ih =>
    rw [held?_cons, held?_cons]
    split
    · exact Alike.rel _
    · exact ih
  | inside key entries value ih =>
    rw [held?_cons, held?_cons]
    split
    · exact .some (.dict value)
    · exact Alike.rel _
  | swap first second entries apart =>
    simp only [held?_cons]
    by_cases found : first.1.key = name
    · have other : second.1.key ≠ name := fun same => apart (found.trans same.symm)
      rw [if_pos found, if_neg other, if_pos found]
      exact Alike.rel _
    · rw [if_neg found, if_neg found]
      exact Alike.rel _
  | trans first second left right => exact Alike.rel_trans left right

/-- Values that are alike have alike parts. -/
theorem Alike.walk? {first second : Value} (alike : Alike first second) (parts : List String) :
    Option.Rel Alike (Config.walk? parts first) (Config.walk? parts second) := by
  induction parts generalizing first second with
  | nil => exact .some alike
  | cons part rest ih =>
    cases alike with
    | refl value => exact Alike.rel _
    | @dict entries others rearranged =>
      have below := rearranged.held? (.text part)
      rw [Config.walk?, Config.walk?, field?_eq_held?, field?_eq_held?]
      generalize Value.held? entries (.text part) = inner at below ⊢
      generalize Value.held? others (.text part) = inner' at below ⊢
      cases below with
      | none => exact .none
      | some alike => exact ih alike

section
variable {key first second : Value} {entries : List (Value × Value)}

theorem alter_alter (first second : Option Value → Value) :
    alter key second (alter key first entries) =
      alter key (fun old => second (some (first old))) entries := by
  induction entries with
  | nil => simp [alter]
  | cons entry rest ih =>
    rw [alter, alter]
    split
    · next found => rw [alter, if_pos found]
    · next other => rw [alter, if_neg other, ih]

/-- Alike values under a key make alike mappings. -/
theorem Rearranged.alter (alike : Alike first second) :
    Rearranged (alter key (fun _ => first) entries) (alter key (fun _ => second) entries) := by
  cases alike with
  | refl value => exact .refl _
  | dict rearranged =>
    induction entries with
    | nil => exact .inside _ _ rearranged
    | cons entry rest ih =>
      rw [Value.alter, Value.alter]
      split
      · exact .inside _ _ rearranged
      · exact .cons _ ih

/-- Values under different keys can be put in either order. -/
theorem Rearranged.alter_alter {other : Value} (apart : key.key ≠ other.key) :
    Rearranged (Value.alter other (fun _ => second) (Value.alter key (fun _ => first) entries))
      (Value.alter key (fun _ => first) (Value.alter other (fun _ => second) entries)) := by
  induction entries with
  | nil =>
    simp only [Value.alter, if_neg apart, if_neg apart.symm]
    exact .swap _ _ _ apart
  | cons entry rest ih =>
    by_cases one : entry.1.key = key.key
    · have two : entry.1.key ≠ other.key := one ▸ apart
      simp only [Value.alter, if_pos one, if_neg two]
      exact .refl _
    · by_cases two : entry.1.key = other.key
      · simp only [Value.alter, if_neg one, if_pos two]
        exact .refl _
      · simp only [Value.alter, if_neg one, if_neg two]
        exact .cons _ ih

end
end Value

/-! ## Below the parts of a key -/

namespace Config

variable {new value : Value} {parts : List String} {entries : List (Value × Value)}

theorem kind_putRefusal (value : Value) : (putRefusal value).kind = .type := by
  cases value <;> rfl

theorem kind_enterRefusal (part : String) (value : Value) :
    (enterRefusal part value).kind = .type := by
  unfold enterRefusal
  split
  · split
    · rfl
    · exact kind_putRefusal _
  · split
    · rfl
    · exact kind_putRefusal _
  · exact kind_putRefusal _
  · rfl

/-- What stands under a part, or the mapping that is made there. -/
def entered (entries : List (Value × Value)) (part : String) : Value :=
  (held? entries (.text part)).getD (.dict [])

theorem entered_alter (name part : String) :
    entered (alter (.text name) (fun _ => value) entries) part =
      if name = part then value else entered entries part := by
  rw [entered, held?_alter]
  by_cases same : name = part
  · simp [same]
  · simp [same, entered]

theorem assignAt_dict (part : String) (rest : List String) :
    assignAt new (part :: rest) (.dict entries) =
      ((assignAt new rest (entered entries part)).1,
       .dict (alter (.text part) (fun _ => (assignAt new rest (entered entries part)).2) entries)) := by
  rw [← put_text, assignAt, field?_eq_held?]
  rfl

/-- What passes a part passes a mapping. -/
theorem assignAt_cons_eq_ok {part : String} {rest : List String} {after : Value} :
    assignAt new (part :: rest) value = (.ok (), after) ↔ ∃ entries inner, value = .dict entries ∧
      assignAt new rest (entered entries part) = (.ok (), inner) ∧
      after = .dict (alter (.text part) (fun _ => inner) entries) := by
  cases value with
  | dict entries =>
    rw [assignAt_dict, Prod.mk.injEq]
    constructor
    · rintro ⟨ok, rfl⟩
      exact ⟨entries, _, rfl, Prod.ext ok rfl, rfl⟩
    · rintro ⟨entries', inner, same, ok, rfl⟩
      obtain rfl := Value.dict.inj same
      rw [ok]
      exact ⟨rfl, rfl⟩
  | _ => cases rest <;> simp [assignAt]

theorem trail_empty : trail parts (.dict []) ≠ .blocked := by
  cases parts with
  | nil => simp [trail]
  | cons part rest => simp [trail, field?_eq_held?]

/-- What is no mapping is not passed, and nothing was changed before it was met. -/
theorem assignAt_of_blocked (new : Value) (blocked : trail parts value = .blocked) :
    ∃ fault, fault.kind = .type ∧ assignAt new parts value = (.error fault, value) := by
  fun_induction trail parts value with
  | case1 value => cases blocked
  | case2 part rest entries inner known ih =>
    obtain ⟨fault, kind, same⟩ := ih blocked
    rw [field?_eq_held?] at known
    refine ⟨fault, kind, ?_⟩
    have stands : held? entries (Value.text part).key = some inner := known
    rw [assignAt_dict, entered, known, Option.getD_some, same, alter_of_held? stands rfl]
  | case3 part rest entries unknown => cases blocked
  | case4 part rest value single =>
    cases rest with
    | nil =>
      cases value with
      | dict entries => exact absurd rfl (single entries)
      | _ => exact ⟨_, kind_putRefusal _, rfl⟩
    | cons next rest =>
      cases value with
      | dict entries => exact absurd rfl (single entries)
      | _ => exact ⟨_, kind_enterRefusal _ _, rfl⟩

/-- Where no such value is met, the new value stands at the end of the way and what is beside the
way is as before. -/
theorem assignAt_of_free (new : Value) (free : trail parts value ≠ .blocked) :
    (assignAt new parts value).1 = .ok () ∧ walk? parts (assignAt new parts value).2 = some new ∧
      ∀ other, ¬ parts <+: other → ¬ other <+: parts →
        walk? other (assignAt new parts value).2 = walk? other value := by
  induction parts generalizing value with
  | nil => exact ⟨rfl, rfl, fun other apart => absurd List.nil_prefix apart⟩
  | cons part rest ih =>
    cases value with
    | dict entries =>
      have inner : trail rest (entered entries part) ≠ .blocked := by
        rw [trail, field?_eq_held?] at free
        rw [entered]
        cases known : held? entries (.text part) with
        | some inner => simpa [known] using free
        | none => exact trail_empty
      obtain ⟨ok, own, beside⟩ := ih inner
      rw [assignAt_dict]
      refine ⟨ok, ?_, fun other longer shorter => ?_⟩
      · simpa [walk?, field?_eq_held?, held?_alter] using own
      · cases other with
        | nil => exact absurd List.nil_prefix shorter
        | cons part' rest' =>
          rw [walk?, walk?, field?_eq_held?, field?_eq_held?, held?_alter, key_text]
          by_cases same : part = part'
          · subst same
            have some : rest' ≠ [] := by
              rintro rfl
              exact shorter (by simp)
            have further := beside rest' (by simpa using longer) (by simpa using shorter)
            rw [if_pos rfl]
            refine further.trans ?_
            rw [entered]
            cases held? entries (.text part) with
            | some inner => rfl
            | none => cases rest' with
              | nil => exact absurd rfl some
              | cons next rest => rfl
          · rw [if_neg (by simpa using same)]
    | _ => exact absurd rfl free

/-- Where two ways part, either value can be put first. -/
theorem assignAt_comm {first second between after : Value} {others : List String}
    (longer : ¬ parts <+: others) (shorter : ¬ others <+: parts)
    (one : assignAt first parts value = (.ok (), between))
    (two : assignAt second others between = (.ok (), after)) :
    ∃ between' after', assignAt second others value = (.ok (), between') ∧
      assignAt first parts between' = (.ok (), after') ∧ Alike after after' := by
  induction parts generalizing value between after others with
  | nil => exact absurd List.nil_prefix longer
  | cons part rest ih => cases others with
    | nil => exact absurd List.nil_prefix shorter
    | cons part' rest' =>
      obtain ⟨entries, inner, rfl, put, rfl⟩ := assignAt_cons_eq_ok.1 one
      obtain ⟨_, inner', same, put', rfl⟩ := assignAt_cons_eq_ok.1 two
      obtain rfl := Value.dict.inj same
      rw [entered_alter] at put'
      by_cases same : part = part'
      · subst same
        rw [if_pos rfl] at put'
        obtain ⟨mid, last, two, one, alike⟩ :=
          ih (by simpa using longer) (by simpa using shorter) put put'
        refine ⟨_, _, assignAt_cons_eq_ok.2 ⟨entries, mid, rfl, two, rfl⟩,
          assignAt_cons_eq_ok.2 ⟨_, last, rfl, ?_, rfl⟩, ?_⟩
        · rwa [entered_alter, if_pos rfl]
        · rw [alter_alter, alter_alter]
          exact .dict (.alter alike)
      · rw [if_neg same] at put'
        refine ⟨_, _, assignAt_cons_eq_ok.2 ⟨entries, inner', rfl, put', rfl⟩,
          assignAt_cons_eq_ok.2 ⟨_, inner, rfl, ?_, rfl⟩, .dict (.alter_alter (by simpa using same))⟩
        rwa [entered_alter, if_neg (Ne.symm same)]

/-! ## Below a dotted key -/

/-- Whether one key stands below the other or is it. -/
def Related (key other : String) : Prop :=
  keyParts key <+: keyParts other ∨ keyParts other <+: keyParts key

/-- Whether what is no mapping stands under a proper prefix of a key. -/
def Barred (config : Config) (key : String) : Prop :=
  ∃ front back value, keyParts key = front ++ back ∧ back ≠ [] ∧
    walk? front (.dict config.entries) = some value ∧ ∀ entries, value ≠ .dict entries

/-- What a configuration gives after a value was put under a key of it. -/
structure Assigned (before : Config) (key : String) (value : Value) (after : Config) : Prop where
  own : ∀ default, after.getD key default = value
  below : ∀ other more, keyParts other = keyParts key ++ more → ∀ default,
    after.getD other default = (walk? more value).getD default
  beside : ∀ other, ¬ Related key other → ∀ default,
    after.getD other default = before.getD other default

theorem splitAt_ne_nil (separator : Char) (text : List Char) : splitAt separator text ≠ [] := by
  cases text with
  | nil => simp [splitAt]
  | cons c rest =>
    rw [splitAt]
    split
    · simp
    · split <;> simp

theorem keyParts_ne_nil (key : String) : keyParts key ≠ [] := by
  simpa [keyParts] using splitAt_ne_nil _ _

/-- Below a key of a configuration as below its parts. -/
theorem assign_eq (config : Config) (key : String) (value : Value) : ∃ entries,
    (assignAt value (keyParts key) (.dict config.entries)).2 = .dict entries ∧
      config.assign key value =
        ((assignAt value (keyParts key) (.dict config.entries)).1, ⟨config.path, entries⟩) := by
  obtain ⟨part, rest, parts⟩ := List.exists_cons_of_ne_nil (keyParts_ne_nil key)
  rw [assign, parts, assignAt_dict]
  exact ⟨_, rfl, rfl⟩

theorem barred_iff {config : Config} {key : String} :
    config.Barred key ↔ trail (keyParts key) (.dict config.entries) = .blocked :=
  trail_eq_blocked.symm

theorem assign_of_barred {config : Config} {key : String} (barred : config.Barred key)
    (value : Value) : ∃ fault, fault.kind = .type ∧
      config.assign key value = (.error fault, config) := by
  obtain ⟨fault, kind, same⟩ := assignAt_of_blocked value (barred_iff.1 barred)
  obtain ⟨entries, changed, made⟩ := config.assign_eq key value
  rw [same] at changed made
  obtain rfl := Value.dict.inj changed
  exact ⟨fault, kind, made⟩

theorem assign_of_free {config : Config} {key : String} (free : ¬ config.Barred key)
    (value : Value) : ∃ after, config.assign key value = (.ok (), after) ∧
      Assigned config key value after := by
  obtain ⟨ok, own, beside⟩ := assignAt_of_free value (mt barred_iff.2 free)
  obtain ⟨entries, changed, made⟩ := config.assign_eq key value
  rw [changed] at own beside
  rw [ok] at made
  refine ⟨_, made, fun default => ?_, fun other more longer default => ?_,
    fun other apart default => ?_⟩
  · rw [getD, get?, own, Option.getD_some]
  · rw [getD, get?, longer, walk?_append, own, Option.bind_some]
  · obtain ⟨longer, shorter⟩ := not_or.1 apart
    rw [getD, get?, beside _ longer shorter]
    rfl

theorem assign_eq_ok {config after : Config} {key : String} {value : Value} :
    config.assign key value = (.ok (), after) ↔ after.path = config.path ∧
      assignAt value (keyParts key) (.dict config.entries) = (.ok (), .dict after.entries) := by
  obtain ⟨entries, changed, made⟩ := config.assign_eq key value
  rw [made, Prod.mk.injEq, Prod.ext_iff, changed]
  cases after with
  | mk path other =>
    simp only [mk.injEq, Value.dict.injEq]
    exact ⟨fun ⟨ok, path, same⟩ => ⟨path.symm, ok, same⟩, fun ⟨path, ok, same⟩ => ⟨ok, path.symm, same⟩⟩

/-- Two keys of which neither stands below the other can be put in either order. -/
theorem assign_comm {config between after : Config} {key other : String} {value value' : Value}
    (apart : ¬ Related key other) (one : config.assign key value = (.ok (), between))
    (two : between.assign other value' = (.ok (), after)) :
    ∃ between' after', config.assign other value' = (.ok (), between') ∧
      between'.assign key value = (.ok (), after') ∧
      ∀ asked default, Alike (after.getD asked default) (after'.getD asked default) := by
  obtain ⟨path, one⟩ := assign_eq_ok.1 one
  obtain ⟨path', two⟩ := assign_eq_ok.1 two
  obtain ⟨longer, shorter⟩ := not_or.1 apart
  obtain ⟨mid, last, two, one, alike⟩ := assignAt_comm longer shorter one two
  obtain ⟨entries, changed, made⟩ := config.assign_eq other value'
  rw [two] at changed made
  subst changed
  obtain ⟨entries', changed', made'⟩ := assign_eq ⟨config.path, entries⟩ key value
  rw [one] at changed' made'
  subst changed'
  refine ⟨_, _, made, made', fun asked default => ?_⟩
  exact Alike.getD (alike.walk? (keyParts asked)) default

/-- The law of assignment. -/
theorem assign_law (config : Config) (key : String) (value : Value) :
    (config.Barred key → ∃ fault, fault.kind = .type ∧
      config.assign key value = (.error fault, config)) ∧
    (¬ config.Barred key → ∃ after, config.assign key value = (.ok (), after) ∧
      Assigned config key value after) ∧
    ∀ other value' between after, ¬ Related key other →
      config.assign key value = (.ok (), between) → between.assign other value' = (.ok (), after) →
      ∃ between' after', config.assign other value' = (.ok (), between') ∧
        between'.assign key value = (.ok (), after') ∧
        ∀ asked default, Alike (after.getD asked default) (after'.getD asked default) :=
  ⟨fun barred => assign_of_barred barred value, fun free => assign_of_free free value,
    fun _ _ _ _ apart one two => assign_comm apart one two⟩

/-- A configuration that has no file. -/
def blank : Config := ⟨⟨"", ["c.yaml"]⟩, defaults⟩

theorem assign_law_cart :
    (blank.Barred "general.log_level.x" ∧ ∃ fault, fault.kind = .type ∧
      blank.assign "general.log_level.x" .null = (.error fault, blank)) ∧
    (¬ blank.Barred "helpers.cart.class" ∧ ∃ after,
      blank.assign "helpers.cart.class" (.text "shop:Cart") = (.ok (), after) ∧
      Assigned blank "helpers.cart.class" (.text "shop:Cart") after) ∧
    ¬ Related "helpers.cart.class" "helpers.cart.size" ∧ ∃ between after between' after',
      blank.assign "helpers.cart.class" (.text "shop:Cart") = (.ok (), between) ∧
      between.assign "helpers.cart.size" (.int 2) = (.ok (), after) ∧
      blank.assign "helpers.cart.size" (.int 2) = (.ok (), between') ∧
      between'.assign "helpers.cart.class" (.text "shop:Cart") = (.ok (), after') ∧
      ∀ asked default, Alike (after.getD asked default) (after'.getD asked default) := by
  have below : keyParts "general.log_level.x" = ["general", "log_level", "x"] := by decide +kernel
  have fresh : keyParts "helpers.cart.class" = ["helpers", "cart", "class"] := by decide +kernel
  have size : keyParts "helpers.cart.size" = ["helpers", "cart", "size"] := by decide +kernel
  have barred : blank.Barred "general.log_level.x" := by
    rw [barred_iff, below]
    rfl
  have free : ¬ blank.Barred "helpers.cart.class" := by
    have absent : trail ["helpers", "cart", "class"] (.dict blank.entries) = .absent := rfl
    rw [barred_iff, fresh, absent]
    exact Trail.noConfusion
  have apart : ¬ Related "helpers.cart.class" "helpers.cart.size" := by
    rw [Related, fresh, size]
    decide
  have ok {answer : Except Fault Unit × Config} (made : answer.1.toBool = true) :
      answer = (.ok (), answer.2) := by
    obtain ⟨result, config⟩ := answer
    cases result with
    | ok value => rfl
    | error fault => cases made
  have one : (blank.assign "helpers.cart.class" (.text "shop:Cart")).1.toBool = true := by
    decide +kernel
  have two : ((blank.assign "helpers.cart.class" (.text "shop:Cart")).2.assign "helpers.cart.size"
      (.int 2)).1.toBool = true := by
    decide +kernel
  have law := assign_law blank "helpers.cart.class" (.text "shop:Cart")
  obtain ⟨between', after', two', one', alike⟩ := law.2.2 _ (.int 2) _ _ apart (ok one) (ok two)
  exact ⟨⟨barred, (assign_law blank "general.log_level.x" .null).1 barred⟩, ⟨free, law.2.1 free⟩,
    apart, _, _, between', after', ok one, ok two, two', one', alike⟩

end Config
end FeatureRunner

import FeatureRunner.Proofs.Container.History

/-!
What class paths resolve to. A path is divided at its first colon, or without one at its last point; the
part before is the path of a module and the part behind a name in it. A path that names nothing is a fault
of the configuration, whatever its form, but for a module path that begins with a point.

Main statement: `Container.class_path_resolved`.
-/

namespace FeatureRunner
open FeatureRunner.Text

/-! ## Division -/

namespace Text

variable {separator : Char} {text before after : List Char}

theorem cutAt?_of_not_mem (none : separator ∉ text) : cutAt? separator text = .none := by
  induction text with
  | nil => rfl
  | cons c text ih =>
    obtain ⟨first, others⟩ := not_or.1 (mt List.mem_cons.2 none)
    rw [cutAt?, if_neg (by simpa using Ne.symm first), ih others]
    rfl

theorem cutAt?_append (apart : separator ∉ before) (after : List Char) :
    cutAt? separator (before ++ separator :: after) = some (before, after) := by
  induction before with
  | nil => simp [cutAt?]
  | cons c before ih =>
    obtain ⟨first, others⟩ := not_or.1 (mt List.mem_cons.2 apart)
    rw [List.cons_append, cutAt?, if_neg (by simpa using Ne.symm first), ih others]
    rfl

theorem cutAtLast?_of_not_mem (none : separator ∉ text) : cutAtLast? separator text = .none := by
  induction text with
  | nil => rfl
  | cons c text ih =>
    obtain ⟨first, others⟩ := not_or.1 (mt List.mem_cons.2 none)
    rw [cutAtLast?, ih others]
    exact if_neg (by simpa using Ne.symm first)

theorem cutAtLast?_append (before : List Char) (apart : separator ∉ after) :
    cutAtLast? separator (before ++ separator :: after) = some (before, after) := by
  induction before with
  | nil =>
    rw [List.nil_append, cutAtLast?, cutAtLast?_of_not_mem apart]
    simp
  | cons c before ih => rw [List.cons_append, cutAtLast?, ih]

end Text

namespace Container

/-- How a class path divides into the path of a module and a name. -/
inductive Divided (path : List Char) : List Char → List Char → Prop
  | colon {before after : List Char} (whole : path = before ++ ':' :: after) (first : ':' ∉ before) :
      Divided path before after
  | point {before after : List Char} (whole : path = before ++ '.' :: after) (none : ':' ∉ path)
      (last : '.' ∉ after) : Divided path before after
  | undivided (noColon : ':' ∉ path) (noPoint : '.' ∉ path) : Divided path [] path

theorem exists_divided (path : List Char) : ∃ before after, Divided path before after := by
  by_cases colon : ':' ∈ path
  · obtain ⟨before, after, whole, first⟩ := List.eq_append_cons_of_mem colon
    exact ⟨before, after, .colon whole first⟩
  · by_cases point : '.' ∈ path
    · -- The last point is the first from behind.
      obtain ⟨after, before, whole, first⟩ := List.eq_append_cons_of_mem (List.mem_reverse.2 point)
      refine ⟨before.reverse, after.reverse, .point ?_ colon (mt List.mem_reverse.1 first)⟩
      have turned := congrArg List.reverse whole
      simpa using turned
    · exact ⟨[], path, .undivided colon point⟩

theorem dividePath_of_divided {path : String} {modulePath member : List Char}
    (divided : Divided path.toList modulePath member) : dividePath path = (modulePath, member) := by
  unfold dividePath
  cases divided with
  | colon whole first => rw [whole, cutAt?_append first]
  | point whole none last =>
    rw [cutAt?_of_not_mem none, whole, cutAtLast?_append _ last]
    rfl
  | undivided noColon noPoint =>
    rw [cutAt?_of_not_mem noColon, cutAtLast?_of_not_mem noPoint]
    rfl

/-! ## Modules -/

def moduleAt? (modules : List HelperModule) (path : List Char) : Option HelperModule :=
  modules.find? (·.path == String.ofList path)

/-- There is a module under a path, and under each path that ends before a point of it. -/
structure Reaches (modules : List HelperModule) (path : List Char) (found : HelperModule) : Prop where
  absolute : path.head? ≠ some '.'
  above : ∀ parent below, path = parent ++ '.' :: below → (moduleAt? modules parent).isSome
  there : moduleAt? modules path = some found

theorem intercalate_cons_cons (c : Char) (piece : List Char) (others : List (List Char)) :
    ['.'].intercalate ((c :: piece) :: others) = c :: ['.'].intercalate (piece :: others) := by
  cases others <;> simp [List.intercalate]

theorem splitAt_cons (c : Char) (path : List Char) : ∃ piece others,
    splitAt '.' path = piece :: others ∧
      splitAt '.' (c :: path) = if c = '.' then [] :: piece :: others else (c :: piece) :: others := by
  induction path generalizing c with
  | nil => exact ⟨[], [], rfl, by by_cases same : c = '.' <;> simp [splitAt, same]⟩
  | cons d path ih =>
    obtain ⟨piece, others, -, divided⟩ := ih d
    split at divided
    all_goals
      refine ⟨_, _, divided, ?_⟩
      rw [splitAt, divided]
      by_cases same : c = '.' <;> simp [same]

theorem pathsAbove_cons (c : Char) (path : List Char) : pathsAbove (c :: path) =
    (if c = '.' then [[]] else []) ++ (pathsAbove path).map (c :: ·) := by
  obtain ⟨piece, others, rest, whole⟩ := splitAt_cons c path
  unfold pathsAbove
  rw [whole, rest]
  by_cases point : c = '.'
  · subst point
    have first : List.range (others.length + 1 + 1) =
        0 :: (List.range (others.length + 1)).map Nat.succ := List.range_succ_eq_map
    simp only [if_true, List.length_cons, first, List.map_cons, List.map_map, List.take_succ_cons,
      List.take_zero, List.intercalate_singleton, List.singleton_append]
    refine congrArg ([] :: ·) (List.map_congr_left fun count _ => ?_)
    simp [List.intercalate_cons_cons]
  · simp only [if_neg point, List.length_cons, List.take_succ_cons, intercalate_cons_cons,
      List.map_map, List.nil_append, Function.comp_def]

theorem mem_pathsAbove {path parent : List Char} :
    parent ∈ pathsAbove path ↔ parent = path ∨ ∃ below, path = parent ++ '.' :: below := by
  induction path generalizing parent with
  | nil => simp [pathsAbove, splitAt]
  | cons c path ih =>
    rw [pathsAbove_cons]
    cases parent with
    | nil => by_cases point : c = '.' <;> simp [point]
    | cons d parent =>
      have apart : d :: parent ∉ if c = '.' then [[]] else [] := by split <;> simp
      simp only [List.mem_append, apart, false_or, List.mem_map, List.cons.injEq, List.cons_append,
        exists_eq_right_right, ih, exists_and_left]
      grind

theorem getLast?_pathsAbove (path : List Char) : (pathsAbove path).getLast? = some path := by
  induction path with
  | nil => rfl
  | cons c path ih => simp [pathsAbove_cons, ih]

section Search

variable {modules : List HelperModule} {path next parent last : List Char} {above : Option HelperModule}
  {paths : List (List Char)} {found : HelperModule}

theorem go_known (there : moduleAt? modules next = some found) :
    findModule.go modules path above (next :: paths) = findModule.go modules path (some found) paths := by
  conv => lhs; unfold findModule.go
  dsimp only
  rw [show modules.find? (·.path == String.ofList next) = some found from there]

theorem go_unknown (missing : moduleAt? modules next = none) :
    ∃ reason, findModule.go modules path above (next :: paths) =
      .error (.helperModule (String.ofList path) reason) := by
  unfold findModule.go
  dsimp only
  rw [show modules.find? (·.path == String.ofList next) = none from missing]
  cases above <;> exact ⟨_, rfl⟩

theorem go_eq_ok (known : ∀ parent ∈ paths, (moduleAt? modules parent).isSome)
    (ends : paths.getLast? = some last) (there : moduleAt? modules last = some found) :
    findModule.go modules path above paths = .ok found := by
  induction paths generalizing above with
  | nil => cases ends
  | cons next paths ih =>
    obtain ⟨here, others⟩ := List.forall_mem_cons.1 known
    obtain ⟨first, there'⟩ := Option.isSome_iff_exists.1 here
    rw [go_known there']
    cases paths with
    | nil =>
      cases ends
      cases there'.symm.trans there
      rfl
    | cons second paths => exact ih others (by simpa using ends)

theorem go_eq_error (among : parent ∈ paths) (missing : moduleAt? modules parent = none) :
    ∃ reason, findModule.go modules path above paths =
      .error (.helperModule (String.ofList path) reason) := by
  induction paths generalizing above with
  | nil => cases among
  | cons next paths ih =>
    cases there : moduleAt? modules next with
    | none => exact go_unknown there
    | some first =>
      rw [go_known there]
      rcases List.mem_cons.1 among with rfl | among
      · cases missing.symm.trans there
      · exact ih among

theorem findModule_of_reaches (reaches : Reaches modules path found) :
    findModule modules path = .ok found := by
  unfold findModule
  rw [if_neg (by simpa using reaches.absolute)]
  refine go_eq_ok ?_ (getLast?_pathsAbove path) reaches.there
  intro parent among
  rcases mem_pathsAbove.1 among with rfl | ⟨below, whole⟩
  · rw [reaches.there]
    rfl
  · exact reaches.above parent below whole

/-- A module path without a point at its beginning that reaches no module is a fault that tells why. -/
theorem findModule_error (absolute : path.head? ≠ some '.') (none : ∀ found, ¬ Reaches modules path found) :
    ∃ reason, findModule modules path = .error (.helperModule (String.ofList path) reason) := by
  unfold findModule
  rw [if_neg (by simpa using absolute)]
  by_cases known : ∀ parent ∈ pathsAbove path, (moduleAt? modules parent).isSome
  · obtain ⟨found, there⟩ := Option.isSome_iff_exists.1 (known path (mem_pathsAbove.2 (.inl rfl)))
    refine absurd ⟨absolute, fun parent below whole => ?_, there⟩ (none found)
    exact known parent (mem_pathsAbove.2 (.inr ⟨below, whole⟩))
  · simp only [not_forall, Option.not_isSome_iff_eq_none] at known
    obtain ⟨parent, among, missing⟩ := known
    exact go_eq_error among missing

end Search

/-! ## Members -/

def memberAt? (found : HelperModule) (name : List Char) : Option ModuleMember :=
  (found.members.find? (·.1 == String.ofList name)).map (·.2)

/-- A class path names a member of a module that is there. -/
def Names (modules : List HelperModule) (path : String) (member : ModuleMember) : Prop :=
  ∃ modulePath name found, Divided path.toList modulePath name ∧ modulePath ≠ [] ∧ name ≠ [] ∧
    Reaches modules modulePath found ∧ memberAt? found name = some member

/-- A class path whose module path begins with a point. -/
def Relative (path : String) : Prop :=
  ∃ modulePath name, Divided path.toList modulePath name ∧ modulePath.head? = some '.' ∧ name ≠ []

/-- The fault of a class path that names nothing: one of the configuration, but of types if its module
path begins with a point. -/
structure Unresolved (modules : List HelperModule) (path : String) (fault : Fault) : Prop where
  nothing : ∀ member, ¬ Names modules path member
  absolute : ¬ Relative path → fault.kind = .configuration
  relative : Relative path → fault.kind = .type

section Resolution

variable {modules : List HelperModule} {path : String} {modulePath name : List Char}
  (divided : Divided path.toList modulePath name)

include divided

theorem divided_unique {modulePath' name' : List Char} (divided' : Divided path.toList modulePath' name') :
    modulePath' = modulePath ∧ name' = name := by
  have same := (dividePath_of_divided divided').symm.trans (dividePath_of_divided divided)
  exact Prod.mk.inj same

theorem names_iff {member : ModuleMember} : Names modules path member ↔
    modulePath ≠ [] ∧ name ≠ [] ∧
      ∃ found, Reaches modules modulePath found ∧ memberAt? found name = some member := by
  constructor
  · rintro ⟨modulePath', name', found, divided', full, named, reaches, known⟩
    obtain ⟨rfl, rfl⟩ := divided_unique divided divided'
    exact ⟨full, named, found, reaches, known⟩
  · rintro ⟨full, named, found, reaches, known⟩
    exact ⟨modulePath, name, found, divided, full, named, reaches, known⟩

theorem relative_iff : Relative path ↔ modulePath.head? = some '.' ∧ name ≠ [] := by
  constructor
  · rintro ⟨modulePath', name', divided', begins, named⟩
    obtain ⟨rfl, rfl⟩ := divided_unique divided divided'
    exact ⟨begins, named⟩
  · exact fun ⟨begins, named⟩ => ⟨modulePath, name, divided, begins, named⟩

theorem findMember_blank (blank : modulePath = [] ∨ name = []) :
    findMember modules path = .error (.helperClassPath path) := by
  unfold findMember
  rw [dividePath_of_divided divided]
  exact if_pos (by simpa using blank)

theorem findMember_full (full : modulePath ≠ []) (named : name ≠ []) :
    findMember modules path =
      match findModule modules modulePath with
      | .ok found =>
        match memberAt? found name with
        | some member => .ok member
        | none => .error (.helperClass (String.ofList name) (String.ofList modulePath))
      | .error fault => .error fault := by
  unfold findMember
  rw [dividePath_of_divided divided]
  refine (if_neg (by simp [full, named])).trans ?_
  cases findModule modules modulePath with
  | error fault => rfl
  | ok found =>
    dsimp only [memberAt?]
    cases known : found.members.find? (·.1 == String.ofList name) <;>
      simp only [Bind.bind, Except.bind, known, Option.map_none, Option.map_some]

theorem unresolved_blank {fault : Fault} (kind : fault.kind = .configuration)
    (blank : modulePath = [] ∨ name = []) : Unresolved modules path fault where
  nothing member names := by
    obtain ⟨full, named, -⟩ := (names_iff divided).1 names
    exact blank.elim full named
  absolute _ := kind
  relative begins := by
    obtain ⟨begins, named⟩ := (relative_iff divided).1 begins
    rw [blank.resolve_right named] at begins
    cases begins

theorem unresolved_relative (begins : modulePath.head? = some '.') (named : name ≠ []) (text : String) :
    Unresolved modules path (.misuse text) where
  nothing member names := by
    obtain ⟨-, -, found, reaches, -⟩ := (names_iff divided).1 names
    exact reaches.absolute begins
  absolute absolute := absurd ((relative_iff divided).2 ⟨begins, named⟩) absolute
  relative _ := rfl

theorem unresolved_absolute (absolute : modulePath.head? ≠ some '.') {fault : Fault}
    (kind : fault.kind = .configuration)
    (none : ∀ found, Reaches modules modulePath found → memberAt? found name = none) :
    Unresolved modules path fault where
  nothing member names := by
    obtain ⟨-, -, found, reaches, known⟩ := (names_iff divided).1 names
    cases (none found reaches).symm.trans known
  absolute _ := kind
  relative begins := absurd ((relative_iff divided).1 begins).1 absolute

end Resolution

/-- A class path resolves to the member that it names, or to nothing if it names none. -/
theorem findMember_cases (modules : List HelperModule) (path : String) :
    (∃ member, Names modules path member ∧ findMember modules path = .ok member) ∨
      ∃ fault, Unresolved modules path fault ∧ findMember modules path = .error fault := by
  obtain ⟨modulePath, name, divided⟩ := exists_divided path.toList
  by_cases blank : modulePath = [] ∨ name = []
  · exact .inr ⟨_, unresolved_blank divided rfl blank, findMember_blank divided blank⟩
  obtain ⟨full, named⟩ := not_or.1 blank
  rw [findMember_full divided full named]
  by_cases begins : modulePath.head? = some '.'
  · have fails : ∃ text, findModule modules modulePath = .error (.misuse text) :=
      ⟨_, if_pos (by simpa using begins)⟩
    obtain ⟨text, fails⟩ := fails
    rw [fails]
    exact .inr ⟨_, unresolved_relative divided begins named text, rfl⟩
  by_cases there : ∃ found, Reaches modules modulePath found
  · obtain ⟨found, reaches⟩ := there
    rw [findModule_of_reaches reaches]
    dsimp only
    cases known : memberAt? found name with
    | some member =>
      exact .inl ⟨member, (names_iff divided).2 ⟨full, named, found, reaches, known⟩, rfl⟩
    | none =>
      refine .inr ⟨_, unresolved_absolute divided begins rfl fun found' reaches' => ?_, rfl⟩
      cases reaches'.there.symm.trans reaches.there
      exact known
  · obtain ⟨reason, fails⟩ := findModule_error begins (not_exists.1 there)
    rw [fails]
    refine .inr ⟨_, unresolved_absolute divided begins rfl fun found reaches => ?_, rfl⟩
    exact absurd ⟨found, reaches⟩ there

/-! ## Helpers -/

/-- The helper that an entry describes whose class path has been resolved: an instance of the class, which
its options may fail. Something that is no class cannot be called. -/
def construct (container : Container) (options : List (Value × Value)) :
    ModuleMember → Except Fault (Value × Container)
  | .helperClass helperClass => container.instantiate helperClass (Value.remove (.text "class") options)
  | .plain typeName => .error (.misuse ("'" ++ typeName ++ "' object is not callable"))

theorem build_eq {container : Container} {modules : List HelperModule} {name : Value}
    {options : List (Value × Value)} {path : String}
    (given : Value.field? options "class" = some (.text path)) :
    container.build modules name (.dict options) =
      if path.isEmpty then .error (.helperWithoutClass name.display)
      else findMember modules path >>= container.construct options := by
  unfold build
  dsimp only
  rw [given]
  refine if_congr (by simp [Value.truthy]) rfl ?_
  change findMember modules path >>= _ = _
  refine bind_congr fun member => ?_
  cases member <;> rfl

/-- Building a helper whose class is given as a text resolves it to what it names, the member of a module,
and constructs the helper from that; or the text names nothing, and building fails with a fault of the
configuration, or of types if the module path begins with a point. -/
theorem class_path_resolved {container : Container} {modules : List HelperModule} {name : Value}
    {options : List (Value × Value)} {path : String}
    (given : Value.field? options "class" = some (.text path)) :
    (∃ member, Names modules path member ∧
      container.build modules name (.dict options) = container.construct options member) ∨
    ∃ fault, Unresolved modules path fault ∧
      container.build modules name (.dict options) = .error fault := by
  rw [build_eq given]
  split
  · next empty =>
    obtain rfl : path = "" := by simpa using empty
    have divided : Divided "".toList [] [] := .undivided (by simp) (by simp)
    exact .inr ⟨_, unresolved_blank divided rfl (.inl rfl), rfl⟩
  · rcases findMember_cases modules path with ⟨member, names, found⟩ | ⟨fault, unresolved, fails⟩
    · rw [found]
      exact .inl ⟨member, names, rfl⟩
    · rw [fails]
      exact .inr ⟨fault, unresolved, rfl⟩

/-- A package with a module in it, which has one class. -/
def shopModules : List HelperModule :=
  [⟨"pets", true, []⟩, ⟨"pets.shop", false, [("Echo", .helperClass .echo)]⟩]

/-- The options of a helper of that class. -/
def shopOptions : List (Value × Value) :=
  [(.text "class", .text "pets.shop:Echo"), (.text "size", .int 2)]

theorem class_path_resolved_shop :
    Value.field? shopOptions "class" = some (.text "pets.shop:Echo") ∧
    ∃ member, Names shopModules "pets.shop:Echo" member ∧
      Container.initial.build shopModules (.text "shop") (.dict shopOptions) =
        Container.initial.construct shopOptions member := by
  have given : Value.field? shopOptions "class" = some (.text "pets.shop:Echo") := by rfl
  have builds : (Container.initial.build shopModules (.text "shop") (.dict shopOptions)).isOk := by
    decide +kernel
  refine ⟨given, ?_⟩
  rcases @class_path_resolved Container.initial shopModules (.text "shop") shopOptions _ given with
    resolved | ⟨fault, -, fails⟩
  · exact resolved
  · rw [fails] at builds
    cases builds

/-- A class path whose module path begins with a point resolves to nothing and is no fault of the
configuration. -/
theorem relative_path_unreported : ∃ fault,
    findMember shopModules ".pets:Echo" = .error fault ∧
      Container.initial.build shopModules (.text "shop")
        (.dict [(.text "class", .text ".pets:Echo")]) = .error fault ∧
      fault.kind ≠ .configuration :=
  ⟨_, rfl, rfl, by decide⟩

end Container

end FeatureRunner

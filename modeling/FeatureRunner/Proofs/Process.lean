import FeatureRunner.Script.Program
import FeatureRunner.Suite
import Mathlib.Tactic.Common

/-!
How programs unfold into processes, and laws that a process keeps at every node. A law says what a
process may do, as long as what it does is what the law assumes: a node that the law does not assume
is never passed, so nothing is asked of what follows it.
-/

namespace FeatureRunner

/-! ## Programs unfolded -/

namespace Program

variable {α β : Type}

theorem pure_apply (value : α) (next : Except Failure α → Process) :
    (pure value : Program α) next = next (.ok value) := rfl

theorem bind_apply (program : Program α) (further : α → Program β)
    (next : Except Failure β → Process) :
    (program >>= further) next = program fun
      | .ok value => further value next
      | .error failure => next (.error failure) := rfl

theorem map_apply (change : α → β) (program : Program α) (next : Except Failure β → Process) :
    (change <$> program) next = program fun
      | .ok value => next (.ok (change value))
      | .error failure => next (.error failure) := rfl

end Program

namespace Process

theorem ask_congr {request : Request} {branch branch' : request.Answer → Process}
    (same : ∀ answer, branch answer = branch' answer) :
    Process.ask request branch = Process.ask request branch' :=
  congrArg _ (funext same)

theorem andThen_done (process : Process) : process.andThen .done = process := by
  induction process with
  | done => rfl
  | ask request next ih => simp only [andThen, ih]
  | call role callable args next ih => simp only [andThen, ih]
  | leave role outcome rest ih => simp only [andThen, ih]
  | add role name body next _ ih => simp only [andThen, ih]
  | await task next ih => simp only [andThen, ih]
  | join task rest ih => simp only [andThen, ih]
  | wait gate rest ih => simp only [andThen, ih]
  | yield rest ih => simp only [andThen, ih]

theorem andThen_assoc (process : Process) (first second : Outcome → Process) :
    (process.andThen first).andThen second =
      process.andThen fun outcome => (first outcome).andThen second := by
  induction process with
  | done => rfl
  | ask request next ih => simp only [andThen, ih]
  | call role callable args next ih => simp only [andThen, ih]
  | leave role outcome rest ih => simp only [andThen, ih]
  | add role name body next _ ih => simp only [andThen, ih]
  | await task next ih => simp only [andThen, ih]
  | join task rest ih => simp only [andThen, ih]
  | wait gate rest ih => simp only [andThen, ih]
  | yield rest ih => simp only [andThen, ih]

end Process

/-! ## Laws -/

/-- The result of a computation that was not cancelled. -/
def Uncancelled {α : Type} (result : Except Failure α) : Prop :=
  result ≠ .error .cancelled

theorem uncancelled_ok {α : Type} (value : α) : Uncancelled (.ok value) := by
  simp [Uncancelled]

theorem uncancelled_fault {α : Type} (fault : Fault) :
    Uncancelled (.error (.fault fault) : Except Failure α) := by
  simp [Uncancelled]

theorem Uncancelled.error {α β : Type} {failure : Failure}
    (plain : Uncancelled (.error failure : Except Failure α)) :
    Uncancelled (.error failure : Except Failure β) := by
  rintro ⟨⟩
  exact plain rfl

theorem Uncancelled.map {α β : Type} {result : Except Failure α} (change : α → β)
    (plain : Uncancelled result) : Uncancelled (result.map change) := by
  cases result with
  | ok value => exact uncancelled_ok _
  | error failure => exact plain.error

/-- The answer tells of no cancellation. -/
def Request.Fair : (request : Request) → request.Answer → Prop
  | .outcome _, answer => answer ≠ some (.error .cancelled)
  | _, _ => True

/-- What a process does at a node. -/
inductive Act
  | ask (request : Request)
  | call (role : Role) (callable : Callable) (args : List Value)
  | leave (role : Role) (outcome : Outcome)
  | add (role : Role) (name : String) (body : Process)
  | await (task : Nat)
  | join (task : Nat)
  | wait (gate : String)
  | yield

def Process.act? : Process → Option Act
  | done _ => none
  | ask request _ => some (.ask request)
  | call role callable args _ => some (.call role callable args)
  | leave role outcome _ => some (.leave role outcome)
  | add role name body _ => some (.add role name body)
  | await task _ => some (.await task)
  | join task _ => some (.join task)
  | wait gate _ => some (.wait gate)
  | yield _ => some .yield

/-- What a process may do, and what may be taken for granted of what is done and answered. -/
structure Law where
  allows : Act → Prop
  /-- What is known of all that is done. -/
  assumes : Act → Prop
  /-- What is known of answers. -/
  grants : (request : Request) → request.Answer → Prop := Request.Fair
  /-- What is known of the numbers of tasks that are added. -/
  numbers : Nat → Prop := fun _ => True
  /-- Whether the tasks that a process adds keep the law as well. -/
  covers : Prop

/-- The process has ended as is said. -/
def Process.Ended (ends : Outcome → Prop) : Process → Prop
  | done outcome => ends outcome
  | _ => False

/-- As long as nothing is cancelled, every node up to a stop does what the law allows. -/
inductive Process.Keeps (law : Law) : (Process → Prop) → Process → Prop
  | stop {stops process} (stopped : stops process) : Keeps law stops process
  | ask {stops request next} (allowed : law.allows (.ask request))
      (further : law.assumes (.ask request) →
        ∀ answer, law.grants request answer → Keeps law stops (next answer)) :
      Keeps law stops (.ask request next)
  | call {stops role callable args next} (allowed : law.allows (.call role callable args))
      (further : law.assumes (.call role callable args) →
        ∀ outcome, Uncancelled outcome → Keeps law stops (next outcome)) :
      Keeps law stops (.call role callable args next)
  | leave {stops role outcome rest} (allowed : law.allows (.leave role outcome))
      (further : law.assumes (.leave role outcome) → Keeps law stops rest) :
      Keeps law stops (.leave role outcome rest)
  | add {stops role name body next} (allowed : law.allows (.add role name body))
      (work : law.covers → Keeps law (Process.Ended Uncancelled) body)
      (further : law.assumes (.add role name body) →
        ∀ answer, (∀ number, answer = .ok number → law.numbers number) →
          Keeps law stops (next answer)) :
      Keeps law stops (.add role name body next)
  | await {stops task next} (allowed : law.allows (.await task))
      (further : law.assumes (.await task) →
        ∀ outcome, Uncancelled outcome → Keeps law stops (next outcome)) :
      Keeps law stops (.await task next)
  | join {stops task rest} (allowed : law.allows (.join task))
      (further : law.assumes (.join task) → Keeps law stops rest) :
      Keeps law stops (.join task rest)
  | wait {stops gate rest} (allowed : law.allows (.wait gate))
      (further : law.assumes (.wait gate) → Keeps law stops rest) :
      Keeps law stops (.wait gate rest)
  | yield {stops rest} (allowed : law.allows .yield)
      (further : law.assumes .yield → Keeps law stops rest) :
      Keeps law stops (.yield rest)

/-- The process does what the law allows and is not cancelled, however it ends. -/
abbrev Process.Obeys (law : Law) (process : Process) : Prop :=
  process.Keeps law (Process.Ended Uncancelled)

theorem Process.Ended.eq_done {ends : Outcome → Prop} {process : Process}
    (ended : process.Ended ends) : ∃ outcome, process = .done outcome ∧ ends outcome := by
  cases process with
  | done outcome => exact ⟨outcome, rfl, ended⟩
  | _ => exact ended.elim

theorem Process.Ended.act? {ends : Outcome → Prop} {process : Process}
    (ended : process.Ended ends) : process.act? = none := by
  obtain ⟨outcome, rfl, _⟩ := ended.eq_done
  rfl

namespace Process.Keeps

variable {law : Law} {stops stops' : Process → Prop} {process : Process}

/-- A process that keeps a law keeps any that allows more and takes no less for granted. -/
theorem mono_law {law' : Law} (keeps : process.Keeps law stops)
    (allows : ∀ act, law.allows act → law'.allows act)
    (assumes : ∀ act, law'.assumes act → law.assumes act)
    (grants : ∀ request answer, law'.grants request answer → law.grants request answer)
    (numbers : ∀ number, law'.numbers number → law.numbers number)
    (covers : law'.covers → law.covers) : process.Keeps law' stops := by
  induction keeps with
  | stop stopped => exact .stop stopped
  | ask allowed _ ih =>
    exact .ask (allows _ allowed) fun known answer granted =>
      ih (assumes _ known) answer (grants _ _ granted)
  | call allowed _ ih => exact .call (allows _ allowed) fun known => ih (assumes _ known)
  | leave allowed _ ih => exact .leave (allows _ allowed) fun known => ih (assumes _ known)
  | add allowed _ _ ihWork ih =>
    exact .add (allows _ allowed) (fun covered => ihWork (covers covered))
      fun known answer numbered =>
        ih (assumes _ known) answer fun number same => numbers number (numbered number same)
  | await allowed _ ih => exact .await (allows _ allowed) fun known => ih (assumes _ known)
  | join allowed _ ih => exact .join (allows _ allowed) fun known => ih (assumes _ known)
  | wait allowed _ ih => exact .wait (allows _ allowed) fun known => ih (assumes _ known)
  | yield allowed _ ih => exact .yield (allows _ allowed) fun known => ih (assumes _ known)

/-- What follows the stops may keep the law up to further stops. -/
theorem trans (keeps : process.Keeps law stops)
    (further : ∀ process, stops process → process.Keeps law stops') :
    process.Keeps law stops' := by
  induction keeps with
  | stop stopped => exact further _ stopped
  | ask allowed _ ih => exact .ask allowed fun known answer granted => ih known answer granted further
  | call allowed _ ih => exact .call allowed fun known outcome plain => ih known outcome plain further
  | leave allowed _ ih => exact .leave allowed fun known => ih known further
  | add allowed work _ _ ih =>
    exact .add allowed work fun known answer numbered => ih known answer numbered further
  | await allowed _ ih =>
    exact .await allowed fun known outcome plain => ih known outcome plain further
  | join allowed _ ih => exact .join allowed fun known => ih known further
  | wait allowed _ ih => exact .wait allowed fun known => ih known further
  | yield allowed _ ih => exact .yield allowed fun known => ih known further

theorem andThen_stops {next : Outcome → Process} (keeps : process.Keeps law stops)
    (further : ∀ process, stops process → (process.andThen next).Keeps law stops') :
    (process.andThen next).Keeps law stops' := by
  induction keeps with
  | stop stopped => exact further _ stopped
  | ask allowed _ ih => exact .ask allowed fun known answer granted => ih known answer granted further
  | call allowed _ ih => exact .call allowed fun known outcome plain => ih known outcome plain further
  | leave allowed _ ih => exact .leave allowed fun known => ih known further
  | add allowed work _ _ ih =>
    exact .add allowed work fun known answer numbered => ih known answer numbered further
  | await allowed _ ih =>
    exact .await allowed fun known outcome plain => ih known outcome plain further
  | join allowed _ ih => exact .join allowed fun known => ih known further
  | wait allowed _ ih => exact .wait allowed fun known => ih known further
  | yield allowed _ ih => exact .yield allowed fun known => ih known further

theorem andThen {ends : Outcome → Prop} {next : Outcome → Process}
    (keeps : process.Keeps law (Ended ends))
    (further : ∀ outcome, ends outcome → (next outcome).Keeps law stops) :
    (process.andThen next).Keeps law stops := by
  refine keeps.andThen_stops fun process ended => ?_
  obtain ⟨outcome, rfl, ended⟩ := ended.eq_done
  exact further outcome ended

theorem allowed {act : Act} (keeps : process.Keeps law stops) (active : ¬stops process)
    (acts : process.act? = some act) : law.allows act := by
  cases keeps with
  | stop stopped => exact absurd stopped active
  | ask allowed => cases acts; exact allowed
  | call allowed => cases acts; exact allowed
  | leave allowed => cases acts; exact allowed
  | add allowed => cases acts; exact allowed
  | await allowed => cases acts; exact allowed
  | join allowed => cases acts; exact allowed
  | wait allowed => cases acts; exact allowed
  | yield allowed => cases acts; exact allowed

end Process.Keeps

/-! ## One node of a process -/

/-- What a process becomes when it has done what it does next, as far as the law knows. -/
inductive Process.Next (law : Law) : Act → Process → Process → Prop
  | ask {request : Request} {branch : request.Answer → Process} {answer : request.Answer}
      (granted : law.grants request answer) :
      Next law (.ask request) (.ask request branch) (branch answer)
  | call {role : Role} {callable : Callable} {args : List Value} {branch : Outcome → Process} :
      Next law (.call role callable args) (.call role callable args branch)
        ((callable.process role args).andThen branch)
  | leave {role : Role} {outcome : Outcome} {rest : Process} :
      Next law (.leave role outcome) (.leave role outcome rest) rest
  | add {role : Role} {name : String} {body : Process} {branch : Except Fault Nat → Process}
      {answer : Except Fault Nat} (numbered : ∀ number, answer = .ok number → law.numbers number) :
      Next law (.add role name body) (.add role name body branch) (branch answer)
  | await {task : Nat} {branch : Outcome → Process} {outcome : Outcome}
      (plain : Uncancelled outcome) : Next law (.await task) (.await task branch) (branch outcome)
  | join {task : Nat} {rest : Process} : Next law (.join task) (.join task rest) rest
  | wait {gate : String} {rest : Process} : Next law (.wait gate) (.wait gate rest) rest
  | yield {rest : Process} : Next law .yield (.yield rest) rest

section Moves

variable {law : Law} {act : Act}

theorem Process.Next.act? {before after : Process} (moves : Next law act before after) :
    before.act? = some act := by
  cases moves <;> rfl

/-- A process with a continuation moves on its own until it has ended. -/
theorem Process.Next.of_andThen {process after : Process} {next : Outcome → Process}
    (moves : Next law act (process.andThen next) after) :
    (∃ outcome, process = .done outcome ∧ Next law act (next outcome) after) ∨
      ∃ rest, Next law act process rest ∧ after = rest.andThen next := by
  cases process with
  | done outcome => exact .inl ⟨outcome, rfl, moves⟩
  | ask request branch =>
    cases moves with
    | ask granted => exact .inr ⟨_, .ask granted, rfl⟩
  | call role callable args branch =>
    cases moves with
    | call => exact .inr ⟨_, .call, (andThen_assoc _ _ _).symm⟩
  | leave role outcome rest =>
    cases moves with
    | leave => exact .inr ⟨_, .leave, rfl⟩
  | add role name body branch =>
    cases moves with
    | add numbered => exact .inr ⟨_, .add numbered, rfl⟩
  | await task branch =>
    cases moves with
    | await plain => exact .inr ⟨_, .await plain, rfl⟩
  | join task rest =>
    cases moves with
    | join => exact .inr ⟨_, .join, rfl⟩
  | wait gate rest =>
    cases moves with
    | wait => exact .inr ⟨_, .wait, rfl⟩
  | yield rest =>
    cases moves with
    | yield => exact .inr ⟨_, .yield, rfl⟩

/-- Whatever the law allows to be called keeps it. -/
def Law.Closed (law : Law) : Prop :=
  ∀ role callable args, law.allows (.call role callable args) →
    (callable.process role args).Obeys law

theorem Process.Keeps.next {stops : Process → Prop} {before after : Process}
    (keeps : before.Keeps law stops) (active : ¬stops before) (closed : law.Closed)
    (moves : Next law act before after) (known : law.assumes act) : after.Keeps law stops := by
  cases keeps with
  | stop stopped => exact absurd stopped active
  | ask allowed further =>
    cases moves with
    | ask granted => exact further known _ granted
  | call allowed further =>
    cases moves with
    | call => exact (closed _ _ _ allowed).andThen fun outcome plain => further known outcome plain
  | leave allowed further =>
    cases moves with
    | leave => exact further known
  | add allowed work further =>
    cases moves with
    | add numbered => exact further known _ numbered
  | await allowed further =>
    cases moves with
    | await plain => exact further known _ plain
  | join allowed further =>
    cases moves with
    | join => exact further known
  | wait allowed further =>
    cases moves with
    | wait => exact further known
  | yield allowed further =>
    cases moves with
    | yield => exact further known

namespace Process.Obeys

variable {process after : Process}

theorem active (acts : process.act? = some act) : ¬process.Ended Uncancelled := by
  intro ended
  rw [ended.act?] at acts
  cases acts

theorem allowed (obeys : process.Obeys law) (acts : process.act? = some act) : law.allows act :=
  Keeps.allowed obeys (active acts) acts

theorem next (obeys : process.Obeys law) (closed : law.Closed) (moves : Next law act process after)
    (known : law.assumes act) : after.Obeys law :=
  Keeps.next obeys (active moves.act?) closed moves known

theorem work {role : Role} {name : String} {body : Process} {branch : Except Fault Nat → Process}
    (obeys : (Process.add role name body branch).Obeys law) (covers : law.covers) :
    body.Obeys law := by
  cases obeys with
  | stop stopped => exact stopped.elim
  | add allowed work further => exact work covers

end Process.Obeys

end Moves

/-! ## Programs that keep a law -/

/-- The process of the program keeps the law up to its end and ends with a good result. -/
def Program.Ensures {α : Type} (law : Law) (good : Except Failure α → Prop)
    (program : Program α) : Prop :=
  ∀ ⦃stops : Process → Prop⦄ ⦃next : Except Failure α → Process⦄,
    (∀ result, good result → (next result).Keeps law stops) → (program next).Keeps law stops

/-- The process of the program keeps the law and is not cancelled. -/
abbrev Program.Obeys {α : Type} (law : Law) (program : Program α) : Prop :=
  program.Ensures law Uncancelled

namespace Program.Ensures

variable {law : Law} {α β : Type} {good : Except Failure α → Prop}

theorem weaken {good' : Except Failure α → Prop} {program : Program α}
    (ensures : program.Ensures law good) (weaker : ∀ result, good result → good' result) :
    program.Ensures law good' :=
  fun _ _ further => ensures fun result known => further result (weaker result known)

theorem toProcess {good : Outcome → Prop} {program : Program Value}
    (ensures : program.Ensures law good) : program.toProcess.Keeps law (Process.Ended good) :=
  ensures fun _ known => .stop known

theorem pure {value : α} (known : good (.ok value)) : (pure value : Program α).Ensures law good :=
  fun _ _ further => further _ known

theorem ask {request : Request} (allowed : law.allows (.ask request)) :
    (Program.ask request).Ensures law fun result =>
      ∃ answer, result = .ok answer ∧ law.grants request answer :=
  fun _ _ further => .ask allowed fun _ answer granted => further _ ⟨answer, rfl, granted⟩

theorem ofProcess {good : Outcome → Prop} {process : Process}
    (keeps : process.Keeps law (Process.Ended good)) :
    (Program.ofProcess process).Ensures law good :=
  fun _ _ further => keeps.andThen further

theorem bind {good' : Except Failure β → Prop} {program : Program α} {next : α → Program β}
    (first : program.Ensures law good)
    (second : ∀ value, good (.ok value) → (next value).Ensures law good')
    (passes : ∀ failure, good (.error failure) → good' (.error failure)) :
    (program >>= next).Ensures law good' := by
  intro ends continuation further
  rw [Program.bind_apply]
  apply first
  intro result known
  cases result with
  | ok value => exact second value known further
  | error failure => exact further _ (passes failure known)

theorem within {good : Outcome → Prop} {role : Role} {program : Program Value}
    {good' : Outcome → Prop} (ensures : program.Ensures law good)
    (leaves : ∀ outcome, law.allows (.leave role outcome))
    (known : ∀ outcome, good outcome → law.assumes (.leave role outcome) → good' outcome) :
    (Program.within role program).Ensures law good' :=
  fun _ _ further => ensures fun outcome plain =>
    .leave (leaves outcome) fun assumed => further outcome (known outcome plain assumed)

theorem addFor {role : Role} {name : String} {body : Program Value}
    {good : Except Failure Nat → Prop} (allowed : law.allows (.add role name body.toProcess))
    (work : law.covers → body.toProcess.Obeys law)
    (known : law.assumes (.add role name body.toProcess) → ∀ answer : Except Fault Nat,
      (∀ number, answer = .ok number → law.numbers number) → good (answer.mapError .fault)) :
    (Program.addFor role name body).Ensures law good := by
  intro ends next further
  refine .add allowed work fun assumed answer numbered => ?_
  have known := known assumed answer numbered
  cases answer with
  | ok task => exact further _ known
  | error fault => exact further _ known

end Program.Ensures

namespace Program.Obeys

variable {law : Law} {α β : Type}

theorem toProcess {program : Program Value} (obeys : program.Obeys law) :
    program.toProcess.Obeys law :=
  Ensures.toProcess obeys

theorem pure (value : α) : (pure value : Program α).Obeys law :=
  fun _ _ further => further _ (uncancelled_ok value)

theorem throw (fault : Fault) : (Program.throw fault : Program α).Obeys law :=
  fun _ _ further => further _ (uncancelled_fault fault)

theorem ofOutcome {outcome : Except Failure α} (plain : Uncancelled outcome) :
    (Program.ofOutcome outcome).Obeys law :=
  fun _ _ further => further _ plain

theorem ofExcept (answer : Except Fault α) : (Program.ofExcept answer).Obeys law := by
  cases answer with
  | ok value => exact pure value
  | error fault => exact throw fault

theorem bind {program : Program α} {next : α → Program β} (first : program.Obeys law)
    (second : ∀ value, (next value).Obeys law) : (program >>= next).Obeys law :=
  Ensures.bind first (fun value _ => second value) fun _ plain => plain.error

theorem ite {condition : Prop} [Decidable condition] {first second : Program α}
    (obeys : first.Obeys law) (obeys' : second.Obeys law) :
    (if condition then first else second).Obeys law := by
  by_cases holds : condition
  · rwa [if_pos holds]
  · rwa [if_neg holds]

theorem rescue {program : Program α} {handler : Fault → Program α} (obeys : program.Obeys law)
    (handles : ∀ fault, (handler fault).Obeys law) : (program.rescue handler).Obeys law := by
  intro ends next further
  apply obeys
  intro result plain
  match result with
  | .error (.fault fault) => exact handles fault further
  | .error .cancelled => exact absurd rfl plain
  | .ok value => exact further _ plain

theorem ask {request : Request} (allowed : law.allows (.ask request)) :
    (Program.ask request).Obeys law :=
  fun _ _ further => .ask allowed fun _ answer _ => further _ (uncancelled_ok answer)

theorem await {task : Nat} (allowed : law.allows (.await task)) : (Program.await task).Obeys law :=
  fun _ _ further => .await allowed fun _ outcome plain => further outcome plain

theorem join {task : Nat} (allowed : law.allows (.join task)) : (Program.join task).Obeys law :=
  fun _ _ further => .join allowed fun _ => further _ (uncancelled_ok ())

theorem wait {gate : String} (allowed : law.allows (.wait gate)) : (Program.wait gate).Obeys law :=
  fun _ _ further => .wait allowed fun _ => further _ (uncancelled_ok ())

theorem yield (allowed : law.allows .yield) (times : Nat) : (Program.yield times).Obeys law := by
  induction times with
  | zero => exact pure ()
  | succ times ih => exact fun _ _ further => .yield allowed fun _ => ih further

theorem within {role : Role} {program : Program Value} (obeys : program.Obeys law)
    (leaves : ∀ outcome, law.allows (.leave role outcome)) :
    (Program.within role program).Obeys law :=
  Ensures.within obeys leaves fun _ plain _ => plain

theorem call {role : Role} {callable : Callable} {args : List Value}
    (allowed : law.allows (.call role callable args))
    (leaves : ∀ outcome, law.allows (.leave role outcome)) :
    (Program.call role callable args).Obeys law :=
  within (fun _ _ further => .call allowed fun _ outcome plain => further outcome plain) leaves

theorem addFor {role : Role} {name : String} {body : Program Value}
    (allowed : law.allows (.add role name body.toProcess))
    (work : law.covers → body.toProcess.Obeys law) : (Program.addFor role name body).Obeys law :=
  Ensures.addFor allowed work fun _ answer _ => by
    cases answer with
    | ok task => exact uncancelled_ok task
    | error fault => exact uncancelled_fault fault

theorem log {value : Value} (asks : ∀ number, law.allows (.ask (.note number value)))
    (section' : law.allows (.ask .logSection)) : (Program.log value).Obeys law :=
  (ask section').bind fun number => ask (asks number)

end Program.Obeys

end FeatureRunner

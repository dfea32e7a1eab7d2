import FeatureRunner.Proofs.World.Run

/-!
Laws that change on the way. A protocol says what a process may do in each of its phases, and how
what it does and hears takes it from one phase to another. Waiting leaves the phase as it is.
-/

namespace FeatureRunner

structure Protocol (Phase : Type) where
  allows : Phase → Act → Prop
  assumes : Act → Prop := fun _ => True
  grants : (request : Request) → request.Answer → Prop := Request.Fair
  heard : Phase → (request : Request) → request.Answer → Phase := fun phase _ _ => phase
  after : Phase → Act → Phase := fun phase _ => phase
  /-- Where processes begin. -/
  first : Phase
  covers : Prop

/-- Every node up to a stop does what the protocol allows in the phase that it is in. -/
inductive Process.Heeds {Phase : Type} (protocol : Protocol Phase) :
    (Phase → Process → Prop) → Phase → Process → Prop
  | stop {stops phase process} (stopped : stops phase process) : Heeds protocol stops phase process
  | ask {stops phase request next} (allowed : protocol.allows phase (.ask request))
      (further : protocol.assumes (.ask request) → ∀ answer, protocol.grants request answer →
        Heeds protocol stops (protocol.heard phase request answer) (next answer)) :
      Heeds protocol stops phase (.ask request next)
  | call {stops phase role callable args next}
      (allowed : protocol.allows phase (.call role callable args))
      (further : protocol.assumes (.call role callable args) → ∀ outcome, Uncancelled outcome →
        Heeds protocol stops (protocol.after phase (.call role callable args)) (next outcome)) :
      Heeds protocol stops phase (.call role callable args next)
  | leave {stops phase role outcome rest} (allowed : protocol.allows phase (.leave role outcome))
      (further : protocol.assumes (.leave role outcome) →
        Heeds protocol stops (protocol.after phase (.leave role outcome)) rest) :
      Heeds protocol stops phase (.leave role outcome rest)
  | add {stops phase role name body next} (allowed : protocol.allows phase (.add role name body))
      (work : protocol.covers → Heeds protocol
        (fun phase process => phase = protocol.first ∧ process.Ended Uncancelled) protocol.first body)
      (further : protocol.assumes (.add role name body) → ∀ answer,
        Heeds protocol stops (protocol.after phase (.add role name body)) (next answer)) :
      Heeds protocol stops phase (.add role name body next)
  | await {stops phase task next} (allowed : protocol.allows phase (.await task))
      (further : protocol.assumes (.await task) → ∀ outcome, Uncancelled outcome →
        Heeds protocol stops phase (next outcome)) :
      Heeds protocol stops phase (.await task next)
  | join {stops phase task rest} (allowed : protocol.allows phase (.join task))
      (further : protocol.assumes (.join task) → Heeds protocol stops phase rest) :
      Heeds protocol stops phase (.join task rest)
  | wait {stops phase gate rest} (allowed : protocol.allows phase (.wait gate))
      (further : protocol.assumes (.wait gate) → Heeds protocol stops phase rest) :
      Heeds protocol stops phase (.wait gate rest)
  | yield {stops phase rest} (allowed : protocol.allows phase .yield)
      (further : protocol.assumes .yield → Heeds protocol stops phase rest) :
      Heeds protocol stops phase (.yield rest)

namespace Protocol

variable {Phase : Type} (protocol : Protocol Phase)

/-- A process has ended where it should. -/
abbrev Back (phase : Phase) (reached : Phase) (process : Process) : Prop :=
  reached = phase ∧ process.Ended Uncancelled

/-- A law whose processes do not leave a set of phases. -/
structure Steady (law : Law) (within : Phase → Prop) : Prop where
  allows : ∀ phase act, within phase → law.allows act → protocol.allows phase act
  assumes : ∀ act, protocol.assumes act → law.assumes act
  grants : ∀ request answer, protocol.grants request answer → law.grants request answer
  numbers : ∀ number, law.numbers number
  heard : ∀ phase request answer, within phase → law.allows (.ask request) →
    protocol.grants request answer → within (protocol.heard phase request answer)
  after : ∀ phase act, within phase → law.allows act → within (protocol.after phase act)
  works : protocol.covers → ∀ role name body, law.allows (.add role name body) →
    body.Heeds protocol (Back protocol.first) protocol.first

/-- Whatever may be called comes back to the phase that the call leads to. -/
def Closed : Prop :=
  ∀ phase role callable args, protocol.allows phase (.call role callable args) →
    (callable.process role args).Heeds protocol
      (Back (protocol.after phase (.call role callable args)))
      (protocol.after phase (.call role callable args))

/-- The phase that an act leads to in a world. -/
def next (phase : Phase) (world : World) : Act → Phase
  | .ask request => protocol.heard phase request (world.respond request).1
  | .await _ | .join _ | .wait _ | .yield => phase
  | act => protocol.after phase act

/-- The phase of a process after the next step. -/
def turn (owner : Owner) (world : World) (phase : Phase) : Phase :=
  match world.act? with
  | some (actor, act) => if actor = owner then protocol.next phase world act else phase
  | none => phase

end Protocol

section Heeds

variable {Phase : Type} {protocol : Protocol Phase} {stops stops' : Phase → Process → Prop}
  {phase : Phase} {process : Process}

theorem Process.Keeps.heeds {law : Law} {stops : Process → Prop} {within : Phase → Prop}
    (keeps : process.Keeps law stops) (steady : protocol.Steady law within) (inside : within phase)
    (further : ∀ phase process, within phase → stops process →
      process.Heeds protocol stops' phase) :
    process.Heeds protocol stops' phase := by
  induction keeps generalizing phase with
  | stop stopped => exact further _ _ inside stopped
  | ask allowed _ ih =>
    exact .ask (steady.allows _ _ inside allowed) fun known answer granted =>
      ih (steady.assumes _ known) answer (steady.grants _ _ granted)
        (steady.heard _ _ _ inside allowed granted) further
  | call allowed _ ih =>
    exact .call (steady.allows _ _ inside allowed) fun known outcome plain =>
      ih (steady.assumes _ known) outcome plain (steady.after _ _ inside allowed) further
  | leave allowed _ ih =>
    exact .leave (steady.allows _ _ inside allowed) fun known =>
      ih (steady.assumes _ known) (steady.after _ _ inside allowed) further
  | add allowed _ _ _ ih =>
    exact .add (steady.allows _ _ inside allowed) (fun covers => steady.works covers _ _ _ allowed)
      fun known answer => ih (steady.assumes _ known) answer (fun number _ => steady.numbers number)
        (steady.after _ _ inside allowed) further
  | await allowed _ ih =>
    exact .await (steady.allows _ _ inside allowed) fun known outcome plain =>
      ih (steady.assumes _ known) outcome plain inside further
  | join allowed _ ih =>
    exact .join (steady.allows _ _ inside allowed) fun known =>
      ih (steady.assumes _ known) inside further
  | wait allowed _ ih =>
    exact .wait (steady.allows _ _ inside allowed) fun known =>
      ih (steady.assumes _ known) inside further
  | yield allowed _ ih =>
    exact .yield (steady.allows _ _ inside allowed) fun known =>
      ih (steady.assumes _ known) inside further

namespace Process.Heeds

theorem andThen {next : Outcome → Process} (heeds : process.Heeds protocol stops phase)
    (further : ∀ phase process, stops phase process →
      (process.andThen next).Heeds protocol stops' phase) :
    (process.andThen next).Heeds protocol stops' phase := by
  induction heeds with
  | stop stopped => exact further _ _ stopped
  | ask allowed _ ih => exact .ask allowed fun known answer granted => ih known answer granted further
  | call allowed _ ih => exact .call allowed fun known outcome plain => ih known outcome plain further
  | leave allowed _ ih => exact .leave allowed fun known => ih known further
  | add allowed work _ _ ih => exact .add allowed work fun known answer => ih known answer further
  | await allowed _ ih =>
    exact .await allowed fun known outcome plain => ih known outcome plain further
  | join allowed _ ih => exact .join allowed fun known => ih known further
  | wait allowed _ ih => exact .wait allowed fun known => ih known further
  | yield allowed _ ih => exact .yield allowed fun known => ih known further

theorem allowed {act : Act} (heeds : process.Heeds protocol stops phase)
    (active : ¬stops phase process) (acts : process.act? = some act) :
    protocol.allows phase act := by
  cases heeds with
  | stop stopped => exact absurd stopped active
  | ask allowed => cases acts; exact allowed
  | call allowed => cases acts; exact allowed
  | leave allowed => cases acts; exact allowed
  | add allowed => cases acts; exact allowed
  | await allowed => cases acts; exact allowed
  | join allowed => cases acts; exact allowed
  | wait allowed => cases acts; exact allowed
  | yield allowed => cases acts; exact allowed

theorem exists_act (heeds : process.Heeds protocol stops phase) (active : ¬stops phase process) :
    ∃ act, process.act? = some act := by
  cases heeds with
  | stop stopped => exact absurd stopped active
  | _ => exact ⟨_, rfl⟩

theorem work {role : Role} {name : String} {body : Process} {branch : Except Fault Nat → Process}
    (heeds : (Process.add role name body branch).Heeds protocol stops phase)
    (active : ¬stops phase (.add role name body branch)) (covers : protocol.covers) :
    body.Heeds protocol (Protocol.Back protocol.first) protocol.first := by
  cases heeds with
  | stop stopped => exact absurd stopped active
  | add _ work => exact work covers

/-- A process that waits goes on in the phase that it is in. -/
theorem passes {world : World} {after : Process} (heeds : process.Heeds protocol stops phase)
    (passes : process.Passes world after) (uncancelled : world.Uncancelled)
    (waits : ∀ act, act.Waits → protocol.assumes act)
    (active : stops phase process → process.act? = none) : after.Heeds protocol stops phase := by
  cases passes with
  | refl => exact heeds
  | await ended =>
    cases heeds with
    | stop stopped => cases active stopped
    | await _ further => exact further (waits _ trivial) _ (uncancelled.plain ended)
  | awaitNone beyond =>
    cases heeds with
    | stop stopped => cases active stopped
    | await _ further => exact further (waits _ trivial) _ (uncancelled_fault _)
  | join ended =>
    cases heeds with
    | stop stopped => cases active stopped
    | join _ further => exact further (waits _ trivial)
  | wait =>
    cases heeds with
    | stop stopped => cases active stopped
    | wait _ further => exact further (waits _ trivial)
  | yield =>
    cases heeds with
    | stop stopped => cases active stopped
    | yield _ further => exact further (waits _ trivial)

end Process.Heeds

end Heeds

/-! ## Programs -/

/-- From a phase, the program keeps to the protocol up to its end and ends with a good result. -/
def Program.Leads {Phase α : Type} (protocol : Protocol Phase) (phase : Phase)
    (good : Except Failure α → Phase → Prop) (program : Program α) : Prop :=
  ∀ ⦃stops : Phase → Process → Prop⦄ ⦃next : Except Failure α → Process⦄,
    (∀ result phase, good result phase → (next result).Heeds protocol stops phase) →
      (program next).Heeds protocol stops phase

namespace Program.Leads

variable {Phase α β : Type} {protocol : Protocol Phase} {phase : Phase}
  {good good' : Except Failure α → Phase → Prop} {program : Program α}

theorem weaken (leads : program.Leads protocol phase good)
    (weaker : ∀ result phase, good result phase → good' result phase) :
    program.Leads protocol phase good' :=
  fun _ _ further => leads fun result phase known => further result phase (weaker _ _ known)

theorem pure {value : α} (known : good (.ok value) phase) :
    (Pure.pure value : Program α).Leads protocol phase good :=
  fun _ _ further => further _ _ known

theorem throw {fault : Fault} (known : good (.error (.fault fault)) phase) :
    (Program.throw fault : Program α).Leads protocol phase good :=
  fun _ _ further => further _ _ known

theorem bind {good' : Except Failure β → Phase → Prop} {next : α → Program β}
    (first : program.Leads protocol phase good)
    (second : ∀ value phase, good (.ok value) phase → (next value).Leads protocol phase good')
    (passes : ∀ failure phase, good (.error failure) phase → good' (.error failure) phase) :
    (program >>= next).Leads protocol phase good' := by
  intro stops continuation further
  rw [Program.bind_apply]
  apply first
  intro result phase known
  cases result with
  | ok value => exact second value phase known further
  | error failure => exact further _ _ (passes failure phase known)

theorem rescue {handler : Fault → Program α} (first : program.Leads protocol phase good)
    (handles : ∀ fault phase, good (.error (.fault fault)) phase →
      (handler fault).Leads protocol phase good')
    (passes : ∀ value phase, good (.ok value) phase → good' (.ok value) phase)
    (cancelled : ∀ phase, good (.error .cancelled) phase → good' (.error .cancelled) phase) :
    (program.rescue handler).Leads protocol phase good' := by
  intro stops next further
  apply first
  intro result phase known
  match result with
  | .ok value => exact further _ _ (passes value phase known)
  | .error (.fault fault) => exact handles fault phase known further
  | .error .cancelled => exact further _ _ (cancelled phase known)

theorem ask {request : Request} {good : Except Failure request.Answer → Phase → Prop}
    (allowed : protocol.allows phase (.ask request))
    (known : ∀ answer, protocol.grants request answer →
      good (.ok answer) (protocol.heard phase request answer)) :
    (Program.ask request).Leads protocol phase good :=
  fun _ _ further => .ask allowed fun _ answer granted => further _ _ (known answer granted)

theorem askThen {request : Request} {next : request.Answer → Program α}
    (allowed : protocol.allows phase (.ask request))
    (further : ∀ answer, protocol.grants request answer →
      (next answer).Leads protocol (protocol.heard phase request answer) good) :
    (Program.ask request >>= next).Leads protocol phase good :=
  fun _ _ ends => .ask allowed fun _ answer granted => further answer granted ends

theorem ofExcept {answer : Except Fault α} (known : good (answer.mapError .fault) phase) :
    (Program.ofExcept answer).Leads protocol phase good := by
  cases answer with
  | ok value => exact fun _ _ further => further _ _ known
  | error fault => exact fun _ _ further => further _ _ known

/-- A whole call. -/
theorem within {role : Role} {inner : Program Value} {good good' : Outcome → Phase → Prop}
    (inside : inner.Leads protocol phase good)
    (leaves : ∀ outcome phase, good outcome phase → protocol.allows phase (.leave role outcome))
    (further : ∀ outcome phase, good outcome phase → protocol.assumes (.leave role outcome) →
      good' outcome (protocol.after phase (.leave role outcome))) :
    (Program.within role inner).Leads protocol phase good' :=
  fun _ _ ends => inside fun outcome phase known =>
    .leave (leaves outcome phase known) fun assumed => ends _ _ (further outcome phase known assumed)

theorem addFor {role : Role} {name : String} {body : Program Value}
    {good : Except Failure Nat → Phase → Prop}
    (allowed : protocol.allows phase (.add role name body.toProcess))
    (work : protocol.covers →
      body.toProcess.Heeds protocol (Protocol.Back protocol.first) protocol.first)
    (known : ∀ answer : Except Fault Nat,
      good (answer.mapError .fault) (protocol.after phase (.add role name body.toProcess))) :
    (Program.addFor role name body).Leads protocol phase good := by
  intro stops next further
  refine .add allowed work fun _ answer => ?_
  have known := known answer
  cases answer with
  | ok task => exact further _ _ known
  | error fault => exact further _ _ known

/-- A program that keeps a law does not leave phases that the law does not. -/
theorem ofEnsures {law : Law} {good : Except Failure α → Prop} {within : Phase → Prop}
    (ensures : program.Ensures law good) (steady : protocol.Steady law within)
    (inside : within phase) :
    program.Leads protocol phase fun result reached => within reached ∧ good result := by
  intro stops next further
  have keeps : (program next).Keeps law fun process =>
      ∀ reached, within reached → process.Heeds protocol stops reached :=
    ensures fun result known => .stop fun reached inside => further result reached ⟨inside, known⟩
  exact keeps.heeds steady inside fun reached _ inside heeds => heeds reached inside

end Program.Leads

/-! ## Steps -/

namespace World

variable {Phase : Type} {protocol : Protocol Phase} {stops : Phase → Process → Prop}
  {phase : Phase} {world next : World} {owner : Owner}

theorem turn_of_act? {act : Act} (acts : world.act? = some (owner, act)) :
    protocol.turn owner world phase = protocol.next phase world act := by
  simp [Protocol.turn, acts]

/-- A process that keeps to a protocol goes on to do so in the phase that a step leads to. -/
theorem Evolves.heeds {after : Process} (evolves : world.Evolves next owner after)
    (uncancelled : next.Uncancelled) (closed : protocol.Closed)
    (waits : ∀ act, act.Waits → protocol.assumes act)
    (known : ∀ act, world.act? = some (owner, act) → protocol.assumes act)
    (granted : ∀ request, world.act? = some (owner, .ask request) →
      protocol.grants request (world.respond request).1)
    (notices : ∀ callable args, owner = .caller → world.current = none →
      (Process.call .notice callable args .done).Heeds protocol stops phase)
    (old : owner ≠ .task world.tasks.length)
    (before : ∀ process, world.process? owner = some process → process.Heeds protocol stops phase)
    (active : ∀ phase process, stops phase process → process.act? = none) :
    after.Heeds protocol stops (protocol.turn owner world phase) := by
  have left {process : Process} {act : Act} (running : world.current = some (owner, process))
      (acts : process.act? = some act) : process.Heeds protocol stops phase ∧
        world.act? = some (owner, act) ∧ ¬stops phase process :=
    ⟨before process (process?_of_running running), act?_of_running running acts, fun stopped => by
      rw [active _ _ stopped] at acts
      cases acts⟩
  cases evolves with
  | @passes process _ left passes quiet =>
    have same : protocol.turn owner world phase = phase := by
      unfold Protocol.turn
      split
      · rename_i actor act acts
        split
        · rename_i mine
          subst mine
          have waits := quiet act acts
          cases act with
          | await | join | wait | yield => rfl
          | _ => exact waits.elim
        · rfl
      · rfl
    rw [same]
    exact (before process left).passes passes uncancelled waits fun stopped => active _ _ stopped
  | asks running =>
    obtain ⟨heeds, acts, going⟩ := left running rfl
    rw [turn_of_act? acts]
    cases heeds with
    | stop stopped => exact absurd stopped going
    | ask _ further => exact further (known _ acts) _ (granted _ acts)
  | calls running =>
    obtain ⟨heeds, acts, going⟩ := left running rfl
    rw [turn_of_act? acts]
    cases heeds with
    | stop stopped => exact absurd stopped going
    | call allowed further =>
      refine (closed _ _ _ _ allowed).andThen ?_
      rintro reached process ⟨rfl, ended⟩
      obtain ⟨outcome, rfl, plain⟩ := ended.eq_done
      exact further (known _ acts) outcome plain
  | leaves running =>
    obtain ⟨heeds, acts, going⟩ := left running rfl
    rw [turn_of_act? acts]
    cases heeds with
    | stop stopped => exact absurd stopped going
    | leave _ further => exact further (known _ acts)
  | adds running =>
    obtain ⟨heeds, acts, going⟩ := left running rfl
    rw [turn_of_act? acts]
    cases heeds with
    | stop stopped => exact absurd stopped going
    | add _ _ further => exact further (known _ acts) _
  | added adds looping new => exact absurd new old
  | stands recovers tail unsettled looping new => exact absurd new old
  | told caller idle =>
    have same : protocol.turn owner world phase = phase := by
      simp [Protocol.turn, act?, idle]
    rw [same]
    exact notices _ _ caller idle

end World

end FeatureRunner

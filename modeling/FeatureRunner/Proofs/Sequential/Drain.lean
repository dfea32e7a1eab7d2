import FeatureRunner.Proofs.Sequential.Mirror

/-!
How the chain is drained. While the host waits, the first task of the chain that has not ended is at
work, and the others wait behind it. So the interpreter, which executes one task of its queue after
the other, is always where the loop is.
-/

namespace FeatureRunner
open FeatureRunner.World

/-- Behind the first of a chain, each link is behind another of them. -/
theorem Strung.behind {first last : Option Nat} {head : Link} {links : List Link}
    (strung : Strung first (head :: links) last) :
    ∀ link ∈ links, ∃ earlier ∈ head :: links, link.previous = some earlier.number := by
  intro link member
  obtain ⟨before, after, rfl⟩ := List.append_of_mem member
  have strung : Strung first ((head :: before) ++ link :: after) last := strung
  obtain ⟨earlier, found, same⟩ := strung.split.1.last (by simp)
  refine ⟨earlier, ?_, same⟩
  simp only [List.mem_cons, List.mem_append] at found ⊢
  exact found.imp_right .inl

/-- A link that is behind a task that has not ended only looks for its end and waits. -/
theorem Stage.idle {world : World} {link : Link} {said : List String} {process : Process}
    {previous : Nat} (stage : Stage world link said process) (behind : link.previous = some previous)
    (pending : world.outcome? previous = none) :
    ∃ act, process.act? = some act ∧ (act.Waits ∨ act.Looks) := by
  have unready (ready : link.Ready world) : False := by
    obtain ⟨value, ended⟩ := ready previous behind
    simp [pending] at ended
  have open' {other : Nat} (behind' : link.previous = some other)
      (ended : (world.outcome? other).isSome) : False := by
    cases behind.symm.trans behind'
    simp [pending] at ended
  cases stage with
  | waits => exact ⟨_, rfl, .inr trivial⟩
  | joins => exact ⟨_, rfl, .inl trivial⟩
  | checks behind' _ _ ended => exact (open' behind' ended).elim
  | opens _ _ ready => exact (unready ready).elim
  | poisoned behind' _ ended => exact (open' behind' (by simp [ended])).elim
  | works _ ready => exact (unready ready).elim
  | reported _ ready => exact (unready ready).elim
  | stands => exact ⟨_, rfl, .inl trivial⟩
  | stood behind' _ ended => exact (open' behind' ended).elim

/-- A link that has not begun is idle, ends, or opens. -/
theorem Stage.unbegun {world : World} {link : Link} {process : Process}
    (stage : Stage world link [] process) :
    (∃ act, process.act? = some act ∧ (act.Waits ∨ act.Looks)) ∨
      (∃ outcome, process = .done outcome) ∨ ∃ name body, link.work = some (name, body) ∧
        link.Ready world ∧ process = Recorder.opening link.session name body := by
  generalize begun : ([] : List String) = said at stage
  cases stage with
  | waits => exact .inl ⟨_, rfl, .inr trivial⟩
  | joins => exact .inl ⟨_, rfl, .inl trivial⟩
  | checks => exact .inl ⟨_, rfl, .inr trivial⟩
  | opens work _ ready => exact .inr (.inr ⟨_, _, work, ready, rfl⟩)
  | poisoned => exact .inr (.inl ⟨_, rfl⟩)
  | works => cases begun
  | reported => cases begun
  | stands => exact .inl ⟨_, rfl, .inl trivial⟩
  | stood => exact .inr (.inl ⟨_, rfl⟩)

/-- A step of one that looks for the end of a task or waits changes nothing that is told. -/
theorem World.Stepped.matches_of_idles {world next : World} (stepped : world.Stepped next)
    (idles : ∀ owner process, world.current = some (owner, process) →
      ∃ act, process.act? = some act ∧ (act.Waits ∨ act.Looks)) :
    next.Matches world ∧ ∀ owner act, world.act? = some (owner, act) → act.Tacit := by
  constructor
  · cases stepped with
    | @asks owner request branch running =>
      obtain ⟨act, acts, waits | looks⟩ := idles _ _ running
      · cases acts
        exact waits.elim
      · cases acts
        cases request with
        | outcome task => exact Matches.proceed _ _
        | _ => exact looks.elim
    | calls running | leaves running | adds running =>
      obtain ⟨act, acts, idle⟩ := idles _ _ running
      cases acts
      exact (or_self_iff.1 idle).elim
    | ends running =>
      obtain ⟨act, acts, _⟩ := idles _ _ running
      cases acts
    | notices _ calm => exact (Matches.proceed _ _).trans calm.matches
    | passes _ calm => exact calm.matches
  · intro owner act acts
    obtain ⟨process, running, begins⟩ := running_of_act? acts
    obtain ⟨act', begins', idle⟩ := idles _ _ running
    cases begins.symm.trans begins'
    cases act with
    | ask request =>
      cases request with
      | outcome task => exact trivial
      | _ => exact (or_self_iff.1 idle).elim
    | add => exact (or_self_iff.1 idle).elim
    | _ => exact trivial

/-- A task that is done ends in the next step. -/
theorem World.ends_of_done {world next : World} {number : Nat} {outcome : Outcome}
    (wired : world.Wired world.busy) (running : world.current = some (.task number, .done outcome))
    (moved : world.step? = some next) : number < world.tasks.length ∧ world.Flows next ∧
      next.outcome? number = some outcome ∧
      ∀ other, other ≠ number → next.outcome? other = world.outcome? other := by
  have free : world.Wired (some number) := by simpa [World.busy, running] using wired
  obtain ⟨inside, _, _⟩ := free.released number rfl
  rw [step?_of_running running, Option.some.injEq] at moved
  subst moved
  exact ⟨inside, .finish free running rfl, outcome?_finish_self _ _ inside,
    fun other apart => outcome?_finish _ _ apart⟩

namespace Sequential

/-- What the interpreter does from where it executes the first task of a queue. -/
def performFrom (process : Process) (state : State) (number : Nat) (queue : List Link) :
    Option State := do
  let (outcome, state) ← process.execute state
  performAll queue (state.finish number outcome)

/-- A queue is still to be executed, of which some have not begun, and nothing is added to it. -/
structure Pending (host tail : Nat) (failed : Option Failure) (state : State)
    (queue unbegun : List Link) (passed : History) (world : World) : Prop
    extends Agrees state passed world where
  vacant : state.queue = []
  chained : world.recorder.tail = some tail
  remains : Remains host failed queue passed world
  silent : ∀ link ∈ unbegun, passed.said link.number = []

/-- The chain is being drained. The first of the queue has not begun, or it has and is where the
interpreter is. What the interpreter has still to do leads to the same in the end. -/
inductive Draining (host tail : Nat) (total : Option State) (passed : History) (world : World) : Prop
  | next {state : State} {queue : List Link}
      (pending : Pending host tail state.failed state queue queue passed world)
      (ahead : performAll queue state = total)
  | amid {state : State} {head : Link} {queue : List Link} {process : Process}
      (pending : Pending host tail none state (head :: queue) queue passed world)
      (left : world.process? (.task head.number) = some process)
      (ahead : performFrom process state head.number queue = total)

section Draining

variable {host tail : Nat} {total : Option State} {state : State} {failed : Option Failure}
  {queue unbegun : List Link} {head : Link} {passed : History} {world next : World}
  {process : Process}

theorem Pending.begins (pending : Pending host tail failed state queue (head :: unbegun) passed world) :
    Pending host tail failed state queue unbegun passed world :=
  { pending with silent := fun link member => pending.silent link (List.mem_cons_of_mem _ member) }

theorem Pending.stays (pending : Pending host tail failed state queue unbegun passed world)
    (same : next.Matches world)
    (tacit : ∀ owner act, world.act? = some (owner, act) → act.Tacit) :
    Pending host tail failed state queue unbegun (passed ++ [world]) next where
  toAgrees := pending.toAgrees.stays same tacit
  vacant := pending.vacant
  chained := same.recorder ▸ pending.chained
  remains := pending.remains.stays same
  silent link member := by
    simp [History.said_append, pending.silent link member, (World.silent_of_tacit tacit).2.2]

theorem Pending.between (pending : Pending host tail failed state queue unbegun passed world)
    (same : next.Matches world) : Pending host tail failed state queue unbegun passed next where
  matches' := pending.matches'.trans same.symm
  emitted := pending.emitted
  vacant := pending.vacant
  chained := same.recorder ▸ pending.chained
  remains := pending.remains.keep id (by rw [same.recorder]) same.length same.outcomes
  silent := pending.silent

/-- A process that goes on where it waits leads to the same. -/
theorem execute_passes {after : Process} (passes : process.Passes next after)
    (same : state.world.Matches next) : after.execute state = process.execute state := by
  cases passes with
  | refl => rfl
  | @await task branch outcome ended =>
    have inside : ¬state.world.tasks.length ≤ task := by
      rw [same.length]
      exact Nat.not_le_of_lt (outcome?_lt ended)
    conv_rhs => rw [Process.execute, if_neg inside, same.outcomes, ended]
  | awaitNone beyond =>
    conv_rhs => rw [Process.execute, if_pos (same.length ▸ beyond)]
  | join ended => conv_rhs => rw [Process.execute]
  | wait => conv_rhs => rw [Process.execute]
  | yield => conv_rhs => rw [Process.execute]

/-- The tasks behind the first of the queue are idle. -/
theorem Remains.idles (remains : Remains host failed (head :: queue) passed world)
    (serial : Serial passed world) {link : Link} (member : link ∈ queue)
    (left : world.process? (.task link.number) = some process) :
    ∃ act, process.act? = some act ∧ (act.Waits ∨ act.Looks) := by
  obtain ⟨previous, strung, _⟩ := remains.strung
  obtain ⟨earlier, found, behind⟩ := strung.behind link member
  have stage := serial.staged link (remains.links link (List.mem_cons_of_mem _ member)) process left
  exact stage.idle behind (remains.pending earlier found)

theorem Remains.ordered (remains : Remains host failed (head :: queue) passed world)
    (serial : Serial passed world) : ∀ link ∈ queue, head.number < link.number := by
  obtain ⟨previous, strung, _⟩ := remains.strung
  have strung : Strung previous ([] ++ head :: queue) world.recorder.tail := strung
  exact serial.later strung.split.2 fun link member =>
    remains.links link (List.mem_cons_of_mem _ member)

/-- When the first of the queue has ended, the next is behind it. -/
theorem Remains.drop {outcome : Outcome} (remains : Remains host failed (head :: queue) passed world)
    (serial : Serial passed world) (flows : world.Flows next)
    (ended : next.outcome? head.number = some outcome)
    (others : ∀ other, other ≠ head.number → next.outcome? other = world.outcome? other) :
    Remains host outcome.failure? queue (passed ++ [world]) next := by
  obtain ⟨previous, strung, _⟩ := remains.strung
  have strung : Strung previous ([] ++ head :: queue) world.recorder.tail := strung
  constructor
  case strung => exact ⟨some head.number, flows.recorder ▸ strung.split.2, ⟨outcome, ended, rfl⟩⟩
  case links =>
    exact fun link member => links_of_mem (remains.links link (List.mem_cons_of_mem _ member))
  case later => exact fun link member => remains.later link (List.mem_cons_of_mem _ member)
  case pending =>
    intro link member
    rw [others _ (Nat.ne_of_gt (remains.ordered serial link member))]
    exact remains.pending link (List.mem_cons_of_mem _ member)
  case others =>
    intro number after within unsettled
    have apart : number ≠ head.number := by
      rintro rfl
      simp [ended] at unsettled
    rw [others _ apart] at unsettled
    obtain ⟨link, member, rfl⟩ := remains.others number after (flows.length ▸ within) unsettled
    exact ⟨link, (List.mem_cons.1 member).resolve_left fun same => apart (same ▸ rfl), rfl⟩

theorem performAll_of_ready {name : String} {body : Process} (work : head.work = some (name, body))
    (unfailed : state.failed = none) : performAll (head :: queue) state =
      performFrom (Recorder.opening head.session name body) state head.number queue := by
  have same := Recorder.task_toProcess head.session none name body
  simp only [performAll, perform, work, unfailed, same, performFrom]
  cases (Recorder.opening head.session name body).execute state <;> rfl

/-- The first of a queue is behind the task that the queue is behind. -/
theorem Remains.first (remains : Remains host failed (head :: queue) passed world) :
    Behind world failed head.previous := by
  obtain ⟨previous, strung, behind⟩ := remains.strung
  have strung : Strung previous ([] ++ head :: queue) world.recorder.tail := strung
  cases strung.split.1
  exact behind

theorem Behind.unfailed (behind : Behind world failed head.previous) (ready : head.Ready world) :
    failed = none := by
  cases first : head.previous with
  | none =>
    rw [first] at behind
    exact behind
  | some previous =>
    rw [first] at behind
    obtain ⟨outcome, ended, rfl⟩ := behind
    obtain ⟨value, ended'⟩ := ready previous first
    cases ended.symm.trans ended'
    rfl

/-- A task that ends without having begun is dropped, or stands for an abandoned chain. -/
theorem performAll_of_done {outcome : Outcome} (behind : Behind world state.failed head.previous)
    (stage : Stage world head [] (.done outcome)) :
    performAll (head :: queue) state = performAll queue (state.finish head.number outcome) := by
  rcases stage.of_done with ⟨begun, _⟩ | ⟨previous, first, ⟨failure, work, rfl, ended⟩ | ⟨idle, rfl⟩⟩
  · exact absurd rfl begun
  · obtain ⟨worked, work⟩ := Option.isSome_iff_exists.1 work
    rw [first] at behind
    obtain ⟨outcome, ended', fails⟩ := behind
    cases ended.symm.trans ended'
    simp [performAll, perform, work, ← fails, Outcome.failure?]
  · simp [performAll, perform, idle]

theorem passes_of_waits (serial : Serial passed world) (moved : world.step? = some next)
    {number : Nat} (left : world.process? (.task number) = some process)
    (waits : ∀ act, world.act? = some (.task number, act) → act.Waits) :
    ∃ after, next.process? (.task number) = some after ∧ process.Passes next after := by
  have stepped := step?_stepped serial.wired moved
  have old := process?_lt serial.wired left
  obtain ⟨after, left'⟩ := process?_isSome (Nat.lt_of_lt_of_le old stepped.length)
  refine ⟨after, left', ?_⟩
  cases stepped.evolves left' with
  | passes left₂ passes =>
    cases left.symm.trans left₂
    exact passes
  | asks running => exact (waits _ (act?_of_running running rfl)).elim
  | calls running => exact (waits _ (act?_of_running running rfl)).elim
  | leaves running => exact (waits _ (act?_of_running running rfl)).elim
  | adds running => exact (waits _ (act?_of_running running rfl)).elim
  | added _ _ new => exact absurd (Owner.task.inj new) (Nat.ne_of_lt old)
  | stands _ _ _ _ new => exact absurd (Owner.task.inj new) (Nat.ne_of_lt old)
  | told caller => cases caller

/-- The first of the queue ends, and the interpreter goes on to the next. -/
theorem Draining.ends {outcome : Outcome} (here : Looped host passed world)
    (moved : world.step? = some next)
    (pending : Pending host tail failed state (head :: queue) queue passed world)
    (running : world.current = some (.task head.number, .done outcome))
    (ahead : performAll queue (state.finish head.number outcome) = total) :
    Draining host tail total (passed ++ [world]) next := by
  obtain ⟨inside, flows, ended, others⟩ := World.ends_of_done here.serial.wired running moved
  refine .next ⟨pending.toAgrees.finish running inside flows ended others, pending.vacant,
    flows.recorder ▸ pending.chained, pending.remains.drop here.serial flows ended others, ?_⟩ ahead
  intro link member
  have writes : world.writes? link.number = none := by
    simp [World.writes?, World.act?, running, Process.act?]
  simp [History.said_append, pending.silent link member, writes]

/-- What the first of the queue asks for has nothing to do with the chain. -/
theorem Draining.asks {request : Request} {branch : request.Answer → Process}
    (here : Looped host passed world) (alone : world.Alone host) (moved : world.step? = some next)
    (pending : Pending host tail none state (head :: queue) queue passed world)
    (running : world.current = some (.task head.number, .ask request branch))
    (ahead : performFrom (.ask request branch) state head.number queue = total) :
    Draining host tail total (passed ++ [world]) next := by
  have acts : world.act? = some (.task head.number, .ask request) := act?_of_running running rfl
  have after := pending.remains.later head (by simp)
  have steady (role : Role) : request ≠ .recorder role .recover := by
    rintro rfl
    exact absurd ((alone.use acts).2 role rfl).1 (Nat.ne_of_gt after)
  have tail' : (world.respond request).2.recorder.tail = world.recorder.tail :=
    tail_respond steady (alone.use acts).1
  rw [step?_of_running running, Option.some.injEq, runNode_ask] at moved
  subst moved
  obtain ⟨answer, agrees⟩ := pending.toAgrees.ask (branch (world.respond request).1) acts
  have remains : Remains host none (head :: queue) (passed ++ [world])
      ((world.respond request).2.proceed (.task head.number) (branch (world.respond request).1)) :=
    pending.remains.keep links_of_mem tail'
      (congrArg List.length (respond_rests request steady).tasks) fun number =>
        outcome?_respond _ number
  refine .amid ⟨agrees, ?_, tail'.trans pending.chained, remains, ?_⟩ (if_pos rfl) ?_
  · rw [State.ask_of_steady steady]
    exact pending.vacant
  · intro link member
    have apart := Nat.ne_of_lt (pending.remains.ordered here.serial link member)
    simp [History.said_append, pending.silent link member, World.writes?_of_apart acts apart]
  · rw [← ahead, ← answer]
    unfold performFrom
    rw [Process.execute]

/-- A step before which the first of the queue has not begun. -/
theorem Draining.step_next (here : Looped host passed world) (alone : world.Alone host)
    (moved : world.step? = some next)
    (pending : Pending host tail state.failed state queue queue passed world)
    (mine : ∀ process, world.current = some (.task host, process) →
      ∃ act, process.act? = some act ∧ (act.Waits ∨ act.Looks))
    (ahead : performAll queue state = total) : Draining host tail total (passed ++ [world]) next := by
  have wired := here.serial.wired
  have remains := pending.remains
  by_cases idles : ∀ owner process, world.current = some (owner, process) →
      ∃ act, process.act? = some act ∧ (act.Waits ∨ act.Looks)
  · obtain ⟨same, tacit⟩ := (step?_stepped wired moved).matches_of_idles idles
    exact .next (pending.stays same tacit) ahead
  simp only [not_forall] at idles
  obtain ⟨owner, process, running, active⟩ := idles
  -- Who does more than that is the first of the queue, since the others are behind it.
  have left := process?_of_running running
  rcases remains.working wired alone running with rfl | ⟨link, member, rfl⟩
  · exact absurd (mine _ running) active
  cases queue with
  | nil => simp at member
  | cons head queue =>
    rcases List.mem_cons.1 member with rfl | member
    · have stage := here.serial.staged link (remains.links link (by simp)) process left
      rw [pending.silent link (by simp)] at stage
      rcases stage.unbegun with idle | ⟨outcome, rfl⟩ | ⟨name, body, work, ready, rfl⟩
      · exact absurd idle active
      · rw [performAll_of_done remains.first stage] at ahead
        exact .ends here moved pending.begins running ahead
      · have unfailed := remains.first.unfailed ready
        rw [performAll_of_ready work unfailed] at ahead
        exact .asks here alone moved (unfailed ▸ pending.begins) running ahead
    · exact absurd (remains.idles here.serial member left) active

/-- A step before which the first of the queue has begun. -/
theorem Draining.step_amid (here : Looped host passed world) (alone : world.Alone host)
    (moved : world.step? = some next)
    (pending : Pending host tail none state (head :: queue) queue passed world)
    (left : world.process? (.task head.number) = some process)
    (mine : ∀ process, world.current = some (.task host, process) →
      ∃ act, process.act? = some act ∧ (act.Waits ∨ act.Looks))
    (ahead : performFrom process state head.number queue = total) :
    Draining host tail total (passed ++ [world]) next := by
  have wired := here.serial.wired
  by_cases waits : ∀ found, world.current = some (.task head.number, found) →
      ∃ act, found.act? = some act ∧ act.Waits
  · obtain ⟨same, tacit⟩ := (step?_stepped wired moved).matches_of_idles fun owner found running => by
      rcases pending.remains.working wired alone running with rfl | ⟨link, member, rfl⟩
      · exact mine _ running
      · rcases List.mem_cons.1 member with rfl | member
        · obtain ⟨act, acts, waiting⟩ := waits _ running
          exact ⟨act, acts, .inl waiting⟩
        · exact pending.remains.idles here.serial member (process?_of_running running)
    obtain ⟨after, left', passes⟩ := passes_of_waits here.serial moved left fun act acts => by
      obtain ⟨found, running, acts⟩ := running_of_act? acts
      obtain ⟨act', acts', waiting⟩ := waits _ running
      cases acts.symm.trans acts'
      exact waiting
    refine .amid (pending.stays same tacit) left' ?_
    rw [← ahead, performFrom, performFrom, execute_passes passes (pending.matches'.trans same.symm)]
  simp only [not_forall] at waits
  obtain ⟨found, running, active⟩ := waits
  cases left.symm.trans (process?_of_running running)
  have tacit (act : Act) (acts : process.act? = some act) (quiet : act.Tacit) :
      ∀ owner found, world.act? = some (owner, found) → found.Tacit := by
    intro owner found known
    cases known.symm.trans (act?_of_running running acts)
    exact quiet
  have goes {after : Process} (result : next = world.proceed (.task head.number) after)
      (tacit : ∀ owner found, world.act? = some (owner, found) → found.Tacit)
      (further : performFrom after state head.number queue = total) :
      Draining host tail total (passed ++ [world]) next := by
    subst result
    exact .amid (pending.stays (Matches.proceed _ _) tacit) (if_pos rfl) further
  have stepped := step?_of_running running
  rw [moved, Option.some.injEq] at stepped
  cases process with
  | done outcome =>
    rw [performFrom, Process.execute] at ahead
    exact .ends here moved pending running ahead
  | ask request branch => exact .asks here alone moved pending running ahead
  | call role callable args branch =>
    refine goes stepped (tacit _ rfl trivial) ?_
    rw [← ahead, performFrom, performFrom]
    conv_rhs => rw [Process.execute]
  | leave role outcome rest =>
    refine goes stepped (tacit _ rfl trivial) ?_
    rw [← ahead, performFrom, performFrom]
    conv_rhs => rw [Process.execute]
  | add role name body branch =>
    have acts : world.act? = some (.task head.number, .add role name body) :=
      act?_of_running running rfl
    have use := (alone.use acts).2 role rfl
    exact absurd use.1 (Nat.ne_of_gt (pending.remains.later head (by simp)))
  | await | join | wait | yield => exact absurd ⟨_, rfl, trivial⟩ active

/-- The chain goes on being drained while the host does nothing but look for its end and wait. -/
theorem Draining.spans : (solitary host).Spans host
    (fun act => act.Waits ∨ act = .ask (.outcome tail)) (Draining host tail total) where
  step {passed world next} here draining alone moved _ mine going := by
    have mine (process : Process) (running : world.current = some (.task host, process)) :
        ∃ act, process.act? = some act ∧ (act.Waits ∨ act.Looks) := by
      cases acts : process.act? with
      | none =>
        cases process with
        | done outcome => exact absurd running (going outcome)
        | _ => cases acts
      | some act =>
        rcases mine act (act?_of_running running acts) with waits | rfl
        · exact ⟨act, rfl, .inl waits⟩
        · exact ⟨_, rfl, .inr trivial⟩
    cases draining with
    | next pending ahead => exact .step_next here alone moved pending mine ahead
    | amid pending left ahead => exact .step_amid here alone moved pending left mine ahead
  between {passed world next} here draining between _ := by
    have calm : world.Calm next := between.calm_or.resolve_right id
    have same := calm.matches
    cases draining with
    | next pending ahead => exact .next (pending.between same) ahead
    | amid pending left ahead =>
      obtain ⟨after, left', passes⟩ := Setting.passes_of_between here left between
      refine .amid (pending.between same) left' ?_
      rw [← ahead, performFrom, performFrom,
        execute_passes passes (pending.matches'.trans same.symm)]

end Draining

end Sequential

end FeatureRunner

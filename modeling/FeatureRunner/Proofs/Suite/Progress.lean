import FeatureRunner.Proofs.Suite.Aside
import FeatureRunner.Proofs.World.Waits

/-!
No task gets stuck beside a run. The tasks beside it wait for earlier ones only, and none of them for
the run, which does not wait for itself. So a loop with nothing left to do has ended them all, unless
one waits for a gate.
-/

namespace FeatureRunner
open FeatureRunner.World

/-- What a run may do: it does not wait for its own task, and what it adds waits for nothing. -/
def Act.Leads (host : Nat) : Act → Prop
  | .await task | .join task => task ≠ host
  | .add _ _ body => body.Obeys (modest (fun _ => True) (· < 0))
  | _ => True

def leading (host : Nat) : Law where
  allows := Act.Leads host
  assumes := Act.Granted
  grants
    | .tail, answer => answer ≠ some host
    | request, answer => request.Fair answer
  numbers := (· ≠ host)
  covers := False

section Leading

variable {host : Nat}

theorem leading_listeners : (leading host).AdmitsListeners where
  collects _ _ _ _ _ _ _ _ := trivial
  calls _ _ _ := trivial
  leaves _ := trivial

theorem leading_scripts (role : Role) (suspends : Bool) :
    (leading host).AdmitsScripts role suspends where
  toAdmitsListeners := leading_listeners
  asks _ _ := trivial
  adds _ _ job := job.obeys (modest_jobs fun _ _ => trivial)
  works covers := covers.elim
  awaits _ _ _ _ _ numbered := numbered
  waits _ := ⟨fun _ => trivial, trivial⟩

theorem leading_closed : (leading host).Closed :=
  fun role callable args _ => callable.process_obeys (leading_scripts role _) args

theorem leading_runs : (leading host).AdmitsRuns where
  toAdmitsListeners := leading_listeners
  outcomes _ := trivial
  fair _ _ fair := fair
  emits _ _ := trivial
  operates _ := trivial
  steps _ _ := trivial
  stepped _ := trivial
  adds _ _ _ := announcement_obeys modest_listeners trivial
  works covers := covers.elim
  tail := trivial
  joins _ granted same := granted (congrArg some same)

end Leading

/-- What every task waits for while a task runs a suite. -/
structure Attended (host : Nat) (world : World) : Prop where
  among : Among (fun _ => True) (fun owner number => number < owner.place ∧ number ≠ host) world [host]
  leads : ∀ process, world.process? (.task host) = some process → process.Obeys (leading host)

namespace Attended

variable {host : Nat} {attached : Prop} {passed : History} {world next : World}

theorem tail_ne_host {number : Nat} (hosted : Hosted host passed world)
    (behind : world.recorder.tail = some number) : number ≠ host := by
  obtain ⟨_, link, member, same, _⟩ := hosted.serial.tail.anchored number behind
  exact same ▸ hosted.apart link member

theorem granted (hosted : Hosted host passed world) (request : Request) :
    (leading host).grants request (world.respond request).1 := by
  have fair := hosted.serial.uncancelled.fair request
  cases request with
  | tail => exact fun same => tail_ne_host hosted same rfl
  | outcome task => exact fair
  | _ => trivial

theorem step (attended : Attended host world) (hosted : Hosted host passed world)
    (orderly : world.Orderly attached) (moved : world.step? = some next) : Attended host next where
  among := by
    refine attended.among.step (fun _ _ => trivial) hosted orderly moved (fun number behind => ?_) ?_
    · exact ⟨(hosted.serial.tail.anchored number behind).1, tail_ne_host hosted behind⟩
    · intro owner role name body acts
      obtain ⟨process, running, adds⟩ := running_of_act? acts
      have left := process?_of_running running
      by_cases mine : owner = .task host
      · subst mine
        exact .inr ((attended.leads process left).allowed adds)
      · obtain ⟨notRun, notStep⟩ :=
          (attended.among owner process (by simpa using mine) left).allowed adds
        exact (orderly.granted _ _ acts).elim (absurd · notRun) (absurd · notStep)
  leads after left := by
    have evolves := (step?_stepped hosted.serial.wired moved).evolves left
    exact evolves.obeys (hosted.serial.step moved).uncancelled leading_closed
      (fun _ => granted_of_waits) (fun act acts => orderly.granted _ _ acts)
      (fun request _ => granted hosted request) (fun _ _ _ _ _ => Nat.ne_of_gt hosted.inside)
      (fun _ _ => trivial)
      (fun same => Nat.ne_of_lt hosted.inside (Owner.task.inj same)) attended.leads

theorem between (attended : Attended host world) (hosted : Hosted host passed world)
    (between : world.Between besides next) : Attended host next where
  among := attended.among.between (fun _ _ => trivial) hosted between
  leads after left := by
    have hosted' := (hosting host True).between hosted between
    obtain ⟨before, left'⟩ := process?_isSome hosted.inside
    obtain ⟨other, known, passes⟩ := (hosting host True).passes_of_between hosted left' between
    cases Option.some.inj (left.symm.trans known)
    exact passes.obeys hosted'.serial.uncancelled leading_closed (fun _ => granted_of_waits)
      (attended.leads before left')

theorem lasts {acts : Act → Prop} :
    (hosting host attached).Lasts host acts fun _ world => Attended host world where
  step hosted attended orderly moved _ _ := attended.step hosted orderly moved
  between hosted attended between _ := attended.between hosted between

/-- Where nothing is left to do, every task has ended: what it would wait for comes before it, and
the run waits for the others. -/
theorem settled (attended : Attended host world) (hosted : Hosted host passed world)
    (idle : world.current = none) (ready : world.ready = []) (soon : world.soon = [])
    (open' : ∀ number gate rest, world.state? number ≠ some (.waiting gate rest)) :
    ∀ number < world.tasks.length, (world.outcome? number).isSome := by
  have still : world.Still := ⟨idle, ready, soon, open'⟩
  have wired := hosted.serial.wired
  have others (number : Nat) (inside : number < world.tasks.length) (apart : number ≠ host) :
      (world.outcome? number).isSome := by
    induction number using Nat.strongRecOn with
    | ind number ih =>
      by_contra unsettled
      obtain ⟨process, left⟩ := process?_isSome inside
      obtain ⟨task, acts, pending, inside'⟩ := still.pends wired left (by simpa using unsettled)
      have obeys := attended.among (.task number) process (by simpa using apart) left
      rcases acts with acts | acts
      · obtain ⟨before, apart'⟩ := obeys.allowed acts
        simpa [pending] using ih task before inside' apart'
      · exact obeys.allowed acts
  intro number inside
  by_cases mine : number = host
  · subst mine
    by_contra unsettled
    obtain ⟨process, left⟩ := process?_isSome inside
    obtain ⟨task, acts, pending, inside'⟩ := still.pends wired left (by simpa using unsettled)
    have apart : task ≠ number := by
      rcases acts with acts | acts <;> exact (attended.leads process left).allowed acts
    simpa [pending] using others task inside' apart
  · exact others number inside mine

end Attended

end FeatureRunner

import FeatureRunner.Proofs.Results.Accounting

/-!
The books of the collector along a run. Whatever steps are taken, what it has heard and what the
process at hand still owes to it are what the ledger has of its events, and the results are what it
has made of those that it has heard.
-/

namespace FeatureRunner
open FeatureRunner.World

/-! ## Results and subscriptions -/

/-- The collector is subscribed to its events, once to each. -/
def World.Watched (world : World) : Prop :=
  ∀ event, (world.dispatcher.listeners event).filterMap Listener.collector? =
    (collectorEvent? event).toList

/-- What the next step tells the collector, and when. -/
def World.heard? (world : World) : Option (String × Due) :=
  match world.act? with
  | some (_, .ask (.collect kind args)) => some (world.now, kind, args)
  | _ => none

/-- An event of the collector is not emitted by anybody but a run. -/
def World.Genuine (world : World) : Prop :=
  ∀ owner role event args, world.act? = some (owner, .ask (.subscribers role event args)) →
    role ≠ .run → collectorEvent? event = none

theorem World.genuine_iff {world : World} : world.Genuine ↔ world.act?.all (fun found =>
    match found.2 with
    | .ask (.subscribers role event _) => decide (role ≠ .run → collectorEvent? event = none)
    | _ => true) = true := by
  rw [Option.all_eq_true]
  constructor
  · rintro genuine ⟨owner, act⟩ acts
    split
    · rename_i role event args same
      exact decide_eq_true (genuine owner role event args (same ▸ acts))
    · rfl
  · intro genuine owner role event args acts
    exact of_decide_eq_true (genuine _ acts)

instance (world : World) : Decidable world.Genuine :=
  decidable_of_iff _ World.genuine_iff.symm

/-- Neither the results nor the subscriptions have changed. -/
structure World.Alike (world next : World) : Prop where
  results : next.results = world.results
  dispatcher : next.dispatcher = world.dispatcher

section Steps

variable {world next : World}

theorem World.Flows.alike (flows : world.Flows next) : world.Alike next := by
  constructor
  · change next.scene.results = world.scene.results
    rw [flows.scene]
  · change next.scene.dispatcher = world.scene.dispatcher
    rw [flows.scene]

theorem addTask_alike (name : String) (body : Process) : world.Alike (world.addTask name body).2 := by
  rcases addTask_cases world name body with ⟨_, result⟩ | ⟨_, result⟩
  · rw [result]
    exact ⟨rfl, rfl⟩
  · rw [result]
    exact ⟨rfl, rfl⟩

theorem recover_alike : world.Alike world.recover.2 := by
  rcases recover_cases world with ⟨_, ⟨result, _⟩ | ⟨result, _⟩⟩ | ⟨previous, _, _, _, result⟩
  · rw [result]
    exact ⟨rfl, rfl⟩
  · rw [result]
    exact ⟨rfl, rfl⟩
  · rw [result]
    exact ⟨rfl, rfl⟩

/-- The results change when the collector is told of something. -/
theorem respond_results (request : Request) : (world.respond request).2.results =
    match request with
    | .collect kind args => (world.results.collect world.now kind args).2
    | _ => world.results := by
  cases request with
  | count instanceNumber amount =>
    simp only [World.respond, addToTotal]
    split <;> rfl
  | recorder role call =>
    cases call with
    | recover => exact recover_alike.results
    | _ => rfl
  | _ => rfl

theorem World.Stepped.results (stepped : world.Stepped next) :
    next.results = world.results.collectAll world.heard?.toList := by
  cases stepped with
  | @asks owner request branch running =>
    change (world.respond request).2.results = _
    rw [respond_results, heard?, act?_of_running running rfl]
    cases request <;> rfl
  | calls running => simp [heard?, act?_of_running running rfl, proceed]
  | leaves running => simp [heard?, act?_of_running running rfl, proceed]
  | @adds owner role name body branch running =>
    rw [heard?, act?_of_running running rfl]
    exact (addTask_alike name body).results
  | ends running flows => simp [heard?, World.act?, running, Process.act?, flows.alike.results]
  | notices idle calm quiet => simp [heard?, World.act?, idle, proceed, calm.toFlows.alike.results]
  | passes waits calm =>
    have quiet : world.heard? = none := by
      unfold heard?
      split
      · rename_i acts
        exact (waits _ _ acts).elim
      · rfl
    simp [quiet, calm.toFlows.alike.results]

/-! ## Subscriptions -/

theorem listeners_update (event other : String) (change : List Listener → List Listener)
    (subscriptions : List (String × List Listener)) :
    Dispatcher.listeners ⟨Dispatcher.update event change subscriptions⟩ other =
      if other = event then change (Dispatcher.listeners ⟨subscriptions⟩ event)
      else Dispatcher.listeners ⟨subscriptions⟩ other := by
  induction subscriptions with
  | nil =>
    by_cases same : other = event
    · simp [Dispatcher.update, Dispatcher.listeners, same]
    · simp [Dispatcher.update, Dispatcher.listeners, same, Ne.symm same]
  | cons first rest ih =>
    obtain ⟨known, listeners⟩ := first
    simp only [Dispatcher.listeners] at ih
    by_cases mine : known = event
    · subst mine
      by_cases same : other = known
      · simp [Dispatcher.update, Dispatcher.listeners, same]
      · simp [Dispatcher.update, Dispatcher.listeners, same, Ne.symm same]
    · by_cases here : known = other
      · subst here
        simp [Dispatcher.update, Dispatcher.listeners, mine]
      · simp [Dispatcher.update, Dispatcher.listeners, mine, here, ih]

theorem collectors_erase {listener : Listener} (scripted : listener.collector? = none)
    (listeners : List Listener) : (listeners.erase listener).filterMap Listener.collector? =
      listeners.filterMap Listener.collector? := by
  induction listeners with
  | nil => rfl
  | cons first rest ih =>
    by_cases same : first = listener
    · simp [same, scripted]
    · rw [List.erase_cons_tail (by simpa using same), List.filterMap_cons, List.filterMap_cons, ih]

/-- A change to the listeners of an event that leaves the collector alone. -/
theorem watched_update {event : String} {change : List Listener → List Listener}
    (watched : world.Watched) (same : ∀ listeners, (change listeners).filterMap Listener.collector? =
      listeners.filterMap Listener.collector?)
    (changed : next.dispatcher = ⟨Dispatcher.update event change world.dispatcher.subscriptions⟩) :
    next.Watched := by
  intro other
  rw [changed, listeners_update]
  split
  · rename_i mine
    rw [same, mine]
    exact watched event
  · exact watched other

theorem World.Alike.watched (alike : world.Alike next) (watched : world.Watched) : next.Watched := by
  intro event
  rw [alike.dispatcher]
  exact watched event

theorem respond_watched (request : Request) (watched : world.Watched)
    (scripted : ∀ event listener, request = .subscribe event listener ∨
      request = .unsubscribe event listener → listener.collector? = none) :
    (world.respond request).2.Watched := by
  cases request with
  | subscribe event listener =>
    have apart := scripted event listener (.inl rfl)
    exact watched_update watched (by simp [apart]) rfl
  | unsubscribe event listener =>
    exact watched_update watched (collectors_erase (scripted event listener (.inr rfl))) rfl
  | count instanceNumber amount =>
    have same : (world.addToTotal instanceNumber amount).2.dispatcher = world.dispatcher := by
      unfold addToTotal
      split <;> rfl
    exact fun event => same ▸ watched event
  | recorder role call =>
    cases call with
    | recover => exact recover_alike.watched watched
    | _ => exact watched
  | _ => exact watched

theorem World.Stepped.watched (stepped : world.Stepped next) (watched : world.Watched)
    (scripted : ∀ owner event listener, world.act? = some (owner, .ask (.subscribe event listener)) ∨
      world.act? = some (owner, .ask (.unsubscribe event listener)) → listener.collector? = none) :
    next.Watched := by
  cases stepped with
  | @asks owner request branch running =>
    refine respond_watched request watched fun event listener same => scripted owner event listener ?_
    rw [act?_of_running running rfl]
    exact same.imp (congrArg fun request => some (owner, Act.ask request))
      (congrArg fun request => some (owner, Act.ask request))
  | calls running => exact watched
  | leaves running => exact watched
  | adds running => exact (addTask_alike _ _).watched watched
  | ends running flows => exact flows.alike.watched watched
  | notices idle calm quiet => exact calm.toFlows.alike.watched watched
  | passes waits calm => exact calm.toFlows.alike.watched watched

end Steps

/-- Whoever does not wait goes straight on. -/
theorem current_of_act {world next : World} {actor : Owner} {act : Act}
    (acts : world.act? = some (actor, act)) (active : ¬act.Waits) (moved : world.step? = some next) :
    ∃ after, next.current = some (actor, after) := by
  obtain ⟨process, running, does⟩ := running_of_act? acts
  rw [step?_of_running running, Option.some.injEq] at moved
  subst moved
  cases process with
  | done => cases does
  | ask | call | leave | add => exact ⟨_, rfl⟩
  | await | join | wait | yield =>
    cases does
    exact absurd trivial active

/-! ## The books -/

/-- What an owner owes in a world in which the process at hand owes something. -/
def World.owes (debts : List Due) (world : World) (owner : Owner) : List Due :=
  if world.current.map Prod.fst = some owner then debts else []

theorem World.owes_of_running {debts : List Due} {world : World} {owner : Owner} {process : Process}
    (running : world.current = some (owner, process)) : world.owes debts owner = debts := by
  simp [owes, running]

theorem World.owes_of_apart {debts : List Due} {world : World} {owner actor : Owner}
    {process : Process} (running : world.current = some (actor, process)) (apart : owner ≠ actor) :
    world.owes debts owner = [] := by
  simp [owes, running, apart.symm]

theorem World.owes_nil (world : World) (owner : Owner) : world.owes [] owner = [] := by
  simp [owes]

/-- What the process at hand owes after the next step. -/
def World.owing (debts : List Due) (world : World) : List Due :=
  match world.act? with
  | some (_, act) => accounting.next debts world act
  | none => debts

/-- Since some entries of the ledger the collector has heard of all that was due to it but what the
process at hand owes, and the results are what it has made of it. -/
structure Accounted (origin : Results) (prior : List Entry) (debts : List Due) (passed : History)
    (world : World) : Prop where
  books : ∃ heard entries, passed.ledger = prior ++ entries ∧
    heard.map Prod.snd ++ debts = entries.filterMap Entry.due? ∧
    world.results = origin.collectAll heard
  heeds : ∀ owner process, world.process? owner = some process →
    process.Heeds accounting (Protocol.Back []) (world.owes debts owner)
  watched : world.Watched
  idle : world.current = none → debts = []

section Books

variable {origin : Results} {prior : List Entry} {debts : List Due} {passed : History}
  {world next : World} {owner : Owner} {act : Act}

namespace Accounted

theorem allowed (accounted : Accounted origin prior debts passed world)
    (acts : world.act? = some (owner, act)) : accounting.allows debts act := by
  obtain ⟨process, running, does⟩ := running_of_act? acts
  have heeds := accounted.heeds owner process (process?_of_running running)
  rw [owes_of_running running] at heeds
  refine heeds.allowed (fun back => ?_) does
  rw [back.2.act?] at does
  cases does

/-- Nothing is owed where nothing is done. -/
theorem square (accounted : Accounted origin prior debts passed world)
    (none : world.act? = none) : debts = [] := by
  cases current : world.current with
  | none => exact accounted.idle current
  | some running =>
    obtain ⟨owner, process⟩ := running
    have heeds := accounted.heeds owner process (process?_of_running current)
    rw [owes_of_running current] at heeds
    by_cases back : Protocol.Back [] debts process
    · exact back.1
    · obtain ⟨act, acts⟩ := heeds.exists_act back
      cases none.symm.trans (act?_of_running current acts)

theorem owed_of_subscribers (watched : world.Watched) (role : Role) (event : String)
    (args : List Value) : owed args (world.respond (.subscribers role event args)).1 =
      (collectorEvent? event).toList.map (·, args) := by
  have same (listener : Listener) : (world.subscriber listener).collector? = listener.collector? := by
    cases listener with
    | collector kind => rfl
    | scripted name =>
      simp only [subscriber]
      split <;> rfl
  have collectors : ((world.dispatcher.listeners event).map world.subscriber).filterMap
      Subscriber.collector? = (world.dispatcher.listeners event).filterMap Listener.collector? := by
    rw [List.filterMap_map]
    exact congrArg (List.filterMap · _) (funext same)
  change List.map _ (((world.dispatcher.listeners event).map world.subscriber).filterMap _) = _
  rw [collectors, watched event]

theorem granted (accounted : Accounted origin prior debts passed world) (uncancelled : world.Uncancelled)
    (genuine : world.Genuine) {request : Request} (acts : world.act? = some (owner, .ask request)) :
    accounting.grants request (world.respond request).1 := by
  have fair := uncancelled.fair request
  cases request with
  | subscribers role event args =>
    intro other
    rw [owed_of_subscribers accounted.watched, genuine _ _ _ _ acts other]
    rfl
  | _ => exact fair

/-- Only who goes straight on owes anything after a step. -/
theorem owing_cases (accounted : Accounted origin prior debts passed world)
    (moved : world.step? = some next) : debts = [] ∧ world.owing debts = [] ∨
    ∃ actor act process, world.act? = some (actor, act) ∧ next.current = some (actor, process) := by
  unfold owing
  cases acts : world.act? with
  | none => exact .inl ⟨accounted.square acts, accounted.square acts⟩
  | some found =>
    obtain ⟨actor, act⟩ := found
    have allowed := accounted.allowed acts
    by_cases waits : act.Waits
    · cases act with
      | ask | call | leave | add => exact waits.elim
      | _ => exact .inl ⟨allowed waits, allowed waits⟩
    · obtain ⟨process, current⟩ := current_of_act acts waits moved
      exact .inr ⟨actor, act, process, rfl, current⟩

theorem owes_step (accounted : Accounted origin prior debts passed world)
    (moved : world.step? = some next) (owner : Owner) :
    accounting.turn owner world (world.owes debts owner) = next.owes (world.owing debts) owner := by
  rcases accounted.owing_cases moved with ⟨rfl, none⟩ | ⟨actor, act, process, acts, current⟩
  · rw [none, owes_nil, owes_nil]
    unfold owing at none
    unfold Protocol.turn
    split
    · rename_i acts
      rw [acts] at none
      simp only [none, ite_self]
    · rfl
  · obtain ⟨_, running, _⟩ := running_of_act? acts
    have owing : world.owing debts = accounting.next debts world act := by simp [owing, acts]
    by_cases mine : actor = owner
    · subst mine
      simp [turn_of_act? acts, owing, owes_of_running running, owes_of_running current]
    · rw [owes_of_apart running (Ne.symm mine), owes_of_apart current (Ne.symm mine)]
      simp [Protocol.turn, acts, mine]

/-- What is heard and what is owed change as the ledger does. -/
theorem balance (accounted : Accounted origin prior debts passed world) :
    world.heard?.toList.map Prod.snd ++ world.owing debts =
      debts ++ world.entry?.toList.filterMap Entry.due? := by
  have still : debts = debts ++ [] := (List.append_nil debts).symm
  unfold heard? entry? owing
  cases acts : world.act? with
  | none => exact still
  | some found =>
    obtain ⟨owner, act⟩ := found
    have allowed := accounted.allowed acts
    cases act with
    | ask request =>
      cases request with
      | subscribers role event args =>
        cases role with
        | run =>
          obtain rfl := allowed rfl
          have owed := owed_of_subscribers accounted.watched .run event args
          simp only [Protocol.next, accounting] at owed ⊢
          rw [owed]
          cases known : collectorEvent? event <;> simp [Entry.due?, known]
        | _ => exact still
      | collect kind args =>
        obtain ⟨rest, rfl⟩ := List.head?_eq_some_iff.1 allowed
        simp [Protocol.next, accounting]
      | _ => exact still
    | call role callable args => cases role <;> exact still
    | leave role outcome => cases role <;> exact still
    | add role name body =>
      cases role with
      | step => cases looping : world.looping <;> exact still
      | _ => exact still
    | _ => exact still

theorem step {task : Nat} (accounted : Accounted origin prior debts passed world)
    (hosted : Hosted task passed world) (granted : ∀ owner act, world.act? = some (owner, act) → act.Granted)
    (genuine : world.Genuine) (moved : world.step? = some next) :
    Accounted origin prior (world.owing debts) (passed ++ [world]) next := by
  have stepped := step?_stepped hosted.serial.wired moved
  constructor
  case books =>
    obtain ⟨heard, entries, same, books, results⟩ := accounted.books
    refine ⟨heard ++ world.heard?.toList, entries ++ world.entry?.toList, ?_, ?_, ?_⟩
    · rw [History.ledger_append, same, List.append_assoc]
    · rw [List.map_append, List.append_assoc, accounted.balance, ← List.append_assoc, books,
        List.filterMap_append]
    · rw [stepped.results, results, Results.collectAll_append]
  case watched =>
    refine stepped.watched accounted.watched fun owner event listener acts => ?_
    rcases acts with acts | acts
    · exact accounted.allowed acts
    · exact accounted.allowed acts
  case idle =>
    intro idle
    rcases accounted.owing_cases moved with ⟨_, none⟩ | ⟨actor, act, process, _, current⟩
    · exact none
    · cases idle.symm.trans current
  case heeds =>
    intro owner after left
    have evolves := stepped.evolves left
    by_cases new : owner = .task world.tasks.length
    · subst new
      have beyond {process : Process}
          (left : world.process? (.task world.tasks.length) = some process) : False :=
        Nat.lt_irrefl _ (process?_lt hosted.serial.wired left)
      have none : next.owes (world.owing debts) (.task world.tasks.length) = [] := by
        rcases accounted.owing_cases moved with ⟨_, none⟩ | ⟨actor, act, process, acts, current⟩
        · rw [none, owes_nil]
        · obtain ⟨other, running, _⟩ := running_of_act? acts
          refine owes_of_apart current ?_
          rintro rfl
          exact beyond (process?_of_running running)
      rw [none]
      cases evolves with
      | passes left => exact (beyond left).elim
      | asks running => exact (beyond (process?_of_running running)).elim
      | calls running => exact (beyond (process?_of_running running)).elim
      | leaves running => exact (beyond (process?_of_running running)).elim
      | adds running => exact (beyond (process?_of_running running)).elim
      | added adds =>
        obtain ⟨process, running, adds⟩ := running_of_act? adds
        have heeds := accounted.heeds _ process (process?_of_running running)
        cases process with
        | add =>
          cases adds
          exact task_heeds (heeds.work (fun back => back.2) trivial)
        | _ => cases adds
      | stands => exact abandoned_heeds _
      | told caller => cases caller
    · rw [← accounted.owes_step moved]
      refine evolves.heeds (hosted.serial.step moved).uncancelled accounting_closed
        (fun _ => granted_of_waits) (fun act acts => granted owner act acts)
        (fun request acts => accounted.granted hosted.serial.uncancelled genuine acts) ?_ new
        (accounted.heeds owner) fun _ _ back => back.2.act?
      intro callable args _ idle
      have none : world.owes debts owner = [] := by simp [owes, idle]
      rw [none]
      exact .call ⟨nofun, fun _ => rfl⟩ fun _ outcome plain => .stop ⟨rfl, plain⟩

end Accounted

/-- What may come from outside, besides: bystanders that owe nothing to the collector. They leave it
and the results alone. -/
def attending (world next : World) : Prop :=
  Intervention (fun process => (process.Obeys mute ∧ process.Obeys (bystander 0)) ∧
    process.Heeds accounting (Protocol.Back []) []) world next ∧
  next.looping = world.looping ∧ next.results = world.results ∧ (world.Watched → next.Watched)

theorem attending.besides (comes : attending world next) : besides world next :=
  ⟨comes.1.mono fun _ brought => brought.1, comes.2.1⟩

theorem Accounted.between {task : Nat} (accounted : Accounted origin prior debts passed world)
    (hosted : Hosted task passed world) (between : world.Between attending next) :
    Accounted origin prior debts passed next := by
  have wired := hosted.serial.wired
  have uncancelled : next.Uncancelled :=
    ((hosting task True).between hosted (between.mono attending.besides)).serial.uncancelled
  have current (busy : world.current ≠ none) : next.current = world.current := by
    cases between with
    | turn => rfl
    | gate gate idle => exact absurd idle busy
    | outside comes => exact (comes.1.apart wired).1 busy
  have owes (owner : Owner) : next.owes debts owner = world.owes debts owner := by
    by_cases idle : world.current = none
    · rw [accounted.idle idle, owes_nil, owes_nil]
    · rw [World.owes, current idle, World.owes]
  have passes {owner : Owner} {before after : Process} (left : world.process? owner = some before)
      (passes : before.Passes next after) :
      after.Heeds accounting (Protocol.Back []) (next.owes debts owner) := by
    rw [owes]
    exact (accounted.heeds owner before left).passes passes uncancelled (fun _ => granted_of_waits)
      fun back => back.2.act?
  have quiet {owner : Owner} (idle : world.current = none) : next.owes debts owner = [] := by
    rw [accounted.idle idle, owes_nil]
  have alike : next.results = world.results ∧ next.Watched := by
    rcases between.calm_or with calm | comes
    · exact ⟨calm.toFlows.alike.results, calm.toFlows.alike.watched accounted.watched⟩
    · exact ⟨comes.2.2.1, comes.2.2.2 accounted.watched⟩
  constructor
  case books =>
    rw [alike.1]
    exact accounted.books
  case watched => exact alike.2
  case idle =>
    intro idle
    by_cases before : world.current = none
    · exact accounted.idle before
    · exact absurd ((current before).symm.trans idle) before
  case heeds =>
    intro owner after left
    rcases between.calm_or with calm | ⟨comes, _⟩
    · obtain ⟨before, known, on⟩ := calm.passes owner after left
      exact passes known on
    · cases comes with
      | @enters process brought idle =>
        cases owner with
        | caller =>
          cases left
          rw [quiet idle]
          exact brought.2
        | task number => exact passes ((process?_of_idle idle).trans left) (.refl after)
      | @spawns process brought =>
        rw [process?_spawn wired] at left
        split at left
        · rename_i new
          obtain rfl := Option.some.inj left
          have none : (world.spawn process).1.owes debts owner = [] := by
            cases running : world.current with
            | none => exact quiet running
            | some found =>
              obtain ⟨actor, other⟩ := found
              refine owes_of_apart (running : (world.spawn process).1.current = _) ?_
              rintro rfl
              rw [new] at running
              exact Nat.lt_irrefl _ (process?_lt wired (process?_of_running running))
          rw [none]
          exact brought.2
        · exact passes left (.refl after)
      | watches task callable =>
        have calm : world.Calm (world.watch task (.notify callable)) := .watch task _
        obtain ⟨before, known, on⟩ := calm.passes owner after left
        exact passes known on
      | alters apart =>
        have tasks : next.tasks = world.tasks := by rw [apart]
        have same : next.current = world.current := by rw [apart]
        exact passes (by rwa [← process?_congr tasks same]) (.refl after)

end Books

end FeatureRunner

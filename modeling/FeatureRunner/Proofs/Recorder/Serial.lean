import FeatureRunner.Proofs.Recorder.Link

/-!
The links of a session run one after the other. What a run has made is read off its history: the
links in the order in which they were added, and the lines that each has written. A link is behind
the last of its session, or behind none when all of its session have ended; so the links that have
ended come first, and only the next one can have begun.
-/

namespace FeatureRunner
open FeatureRunner.World

namespace World.History

/-- The links that have been added. -/
def links (passed : History) : List Link :=
  passed.filterMap World.link?

/-- The lines that a task has written. -/
def said (passed : History) (number : Nat) : List String :=
  passed.filterMap (World.writes? · number)

end World.History

/-- The line that the next step writes for a session. -/
def World.written? (session : Nat) (world : World) : Option String :=
  match world.act? with
  | some (_, .ask (.record mine line)) => if mine = session then some line else none
  | _ => none

namespace World.History

/-- The lines that have been written for a session. -/
def written (passed : History) (session : Nat) : List String :=
  passed.filterMap (World.written? session)

variable (passed : History) (world : World)

theorem links_append : History.links (passed ++ [world]) = passed.links ++ world.link?.toList := by
  simp only [links, List.filterMap_append]
  cases found : world.link? <;> simp [found]

theorem links_join (passed later : History) :
    History.links (passed ++ later) = passed.links ++ later.links :=
  List.filterMap_append

theorem mem_links_left {passed : History} {link : Link} (later : History)
    (member : link ∈ passed.links) : link ∈ History.links (passed ++ later) := by
  rw [links_join]
  exact List.mem_append_left _ member

theorem mem_links_right (passed : History) {later : History} {link : Link}
    (member : link ∈ later.links) : link ∈ History.links (passed ++ later) := by
  rw [links_join]
  exact List.mem_append_right _ member

theorem said_append (number : Nat) : History.said (passed ++ [world]) number =
    passed.said number ++ (world.writes? number).toList := by
  simp only [said, List.filterMap_append]
  cases found : world.writes? number <;> simp [found]

theorem written_append (session : Nat) : History.written (passed ++ [world]) session =
    passed.written session ++ (world.written? session).toList := by
  simp only [written, List.filterMap_append]
  cases found : world.written? session <;> simp [found]

end World.History

/-- The chain up to a link has all links of a session below a bound; without such a link they have
all ended. -/
structure Follows (world : World) (links : List Link) (session bound : Nat)
    (previous : Option Nat) : Prop where
  anchored : ∀ number, previous = some number →
    number < bound ∧ ∃ link ∈ links, link.number = number ∧ link.session = session
  covered : ∀ link ∈ links, link.session = session → link.number < bound →
    (∀ number, previous = some number → link.number ≤ number) ∧
      (previous = none → (world.outcome? link.number).isSome)

theorem Follows.grow {world next : World} {links : List Link} {session bound : Nat}
    {previous : Option Nat} (follows : Follows world links session bound previous)
    (more : List Link) (beyond : ∀ link ∈ more, link.session = session → bound ≤ link.number)
    (settled : ∀ number, (world.outcome? number).isSome → (next.outcome? number).isSome) :
    Follows next (links ++ more) session bound previous where
  anchored number behind := by
    obtain ⟨below, link, member, same⟩ := follows.anchored number behind
    exact ⟨below, link, List.mem_append_left _ member, same⟩
  covered link member mine below := by
    rcases List.mem_append.1 member with member | member
    · obtain ⟨upTo, ended⟩ := follows.covered link member mine below
      exact ⟨upTo, fun none => settled _ (ended none)⟩
    · exact absurd below (Nat.not_lt_of_le (beyond link member mine))

structure Serial (passed : History) (world : World) : Prop where
  wired : world.Wired world.busy
  uncancelled : world.Uncancelled
  increasing : passed.links.Pairwise fun earlier later => earlier.number < later.number
  inside : ∀ link ∈ passed.links, link.number < world.tasks.length
  staged : ∀ link ∈ passed.links, ∀ process, world.process? (.task link.number) = some process →
    Stage world link (passed.said link.number) process
  others : ∀ owner process, world.process? owner = some process →
    (∀ link ∈ passed.links, owner ≠ .task link.number) → process.Obeys mute
  silent : ∀ number, world.tasks.length ≤ number → passed.said number = []
  sessions : ∀ link ∈ passed.links, link.session ≤ world.recorder.session
  follows : ∀ link ∈ passed.links,
    Follows world passed.links link.session link.number link.previous
  tail : Follows world passed.links world.recorder.session world.tasks.length world.recorder.tail
  spoken : ∀ session, passed.written session =
    (passed.links.filter (·.session = session)).flatMap fun link => passed.said link.number

namespace Serial

variable {passed : History} {world next : World} {link : Link}

/-! ## Earlier links have ended -/

theorem late_of_settled (serial : Serial passed world) (member : link ∈ passed.links)
    (ended : (world.outcome? link.number).isSome) : link.Late world := by
  obtain ⟨outcome, ended⟩ := Option.isSome_iff_exists.1 ended
  exact (serial.staged link member _ (process?_of_outcome serial.wired ended)).late_of_done

theorem late_of_begun (serial : Serial passed world) (member : link ∈ passed.links)
    (begun : passed.said link.number ≠ []) : link.Late world := by
  obtain ⟨process, left⟩ := process?_isSome (serial.inside link member)
  exact (serial.staged link member process left).late_of_said begun

/-- All that a chain has up to its last link has ended when that has. -/
theorem settled_of_follows (serial : Serial passed world) {session bound : Nat}
    {previous : Option Nat} (follows : Follows world passed.links session bound previous)
    (late : ∀ number, previous = some number → (world.outcome? number).isSome) :
    ∀ link ∈ passed.links, link.session = session → link.number < bound →
      (world.outcome? link.number).isSome := by
  induction bound using Nat.strongRecOn generalizing previous with
  | ind bound ih =>
    intro link member mine below
    cases previous with
    | none => exact (follows.covered link member mine below).2 rfl
    | some number =>
      obtain ⟨smaller, anchor, anchored, rfl, same⟩ := follows.anchored number rfl
      have upTo := (follows.covered link member mine below).1 anchor.number rfl
      rcases Nat.lt_or_eq_of_le upTo with before | equal
      · have behind := serial.late_of_settled anchored (late _ rfl)
        exact ih anchor.number smaller (same ▸ serial.follows anchor anchored) behind link member
          mine before
      · rw [equal]
        exact late _ rfl

theorem settled_of_late (serial : Serial passed world) (member : link ∈ passed.links)
    (late : link.Late world) {earlier : Link} (member' : earlier ∈ passed.links)
    (mine : earlier.session = link.session) (before : earlier.number < link.number) :
    (world.outcome? earlier.number).isSome :=
  serial.settled_of_follows (serial.follows link member) late earlier member' mine before

/-! ## What a step does to the chain -/

/-- How the chain of the recorder changes in a step, with the link that is made. -/
inductive Chained (world : World) : Recorder → Option Link → Prop
  | keeps {recorder : Recorder} (session : recorder.session = world.recorder.session)
      (tail : recorder.tail = world.recorder.tail) : Chained world recorder none
  | links {recorder : Recorder} {link : Link} (session : recorder.session = world.recorder.session)
      (tail : recorder.tail = some world.tasks.length) (number : link.number = world.tasks.length)
      (mine : link.session = world.recorder.session)
      (previous : link.previous = world.recorder.tail) : Chained world recorder (some link)
  | frees {recorder : Recorder} (session : recorder.session = world.recorder.session)
      (tail : recorder.tail = none)
      (ended : ∀ number, world.recorder.tail = some number →
        (world.outcome? number).isSome) : Chained world recorder none
  | starts {recorder : Recorder} (session : recorder.session = world.recorder.session + 1)
      (tail : recorder.tail = none) : Chained world recorder none

theorem chained_after (world : World) : Chained world world.recorderAfter world.link? := by
  cases acts : world.act? with
  | none =>
    simp only [recorderAfter, World.link?, acts]
    exact .keeps rfl rfl
  | some found =>
    obtain ⟨owner, act⟩ := found
    cases act with
    | add role name body =>
      simp only [recorderAfter, World.link?, acts]
      rcases addTask_cases world name body with ⟨looping, result⟩ | ⟨looping, result⟩
      · rw [result, looping]
        exact .keeps rfl rfl
      · rw [result, looping]
        exact .links rfl rfl rfl rfl rfl
    | ask request =>
      cases request with
      | record session line =>
        simp only [recorderAfter, World.link?, acts, Recorder.record]
        split <;> exact .keeps rfl rfl
      | recorder role call =>
        cases call with
        | start =>
          simp only [recorderAfter, World.link?, acts]
          exact .starts rfl rfl
        | stop =>
          simp only [recorderAfter, World.link?, acts]
          exact .keeps rfl rfl
        | startUnlessRunning =>
          simp only [recorderAfter, World.link?, acts, operate, Recorder.startUnlessRunning]
          split
          · exact .keeps rfl rfl
          · exact .starts rfl rfl
        | recover =>
          simp only [recorderAfter, World.link?, acts, operate, recover]
          cases tail : world.recorder.tail with
          | none => exact .frees rfl rfl (by simp [tail])
          | some previous =>
            by_cases ended : (world.outcome? previous).isSome = true
            · simp only [ended, if_true, Bool.true_or]
              exact .frees rfl rfl (by simpa [tail] using ended)
            · cases looping : world.looping with
              | false =>
                simp only [ended, Bool.not_false, if_true, Bool.or_true]
                exact .keeps rfl rfl
              | true =>
                simp only [ended]
                exact .links rfl rfl rfl rfl tail.symm
      | _ =>
        simp only [recorderAfter, World.link?, acts]
        exact .keeps rfl rfl
    | _ =>
      simp only [recorderAfter, World.link?, acts]
      exact .keeps rfl rfl

/-- A link has the number of the next task and belongs to the present session. -/
theorem number_of_link (made : world.link? = some link) :
    link.number = world.tasks.length ∧ link.session = world.recorder.session := by
  have chained := chained_after world
  rw [made] at chained
  cases chained with
  | links session tail number mine previous => exact ⟨number, mine⟩

/-! ## What a step writes -/

/-- A step writes nothing, or a link writes a line for its session, after its predecessor. -/
theorem hear (serial : Serial passed world) :
    (∀ number, world.writes? number = none) ∧ (∀ session, world.written? session = none) ∨
    ∃ link ∈ passed.links, ∃ line,
      world.act? = some (.task link.number, .ask (.record link.session line)) ∧
      link.Late world := by
  cases current : world.current with
  | none => exact .inl (by simp [World.writes?, World.written?, World.act?, current])
  | some running =>
    obtain ⟨owner, process⟩ := running
    have left := process?_of_running current
    by_cases speaks : ∃ session line, process.act? = some (.ask (.record session line))
    · obtain ⟨session, line, acts⟩ := speaks
      by_cases linked : ∃ link ∈ passed.links, owner = .task link.number
      · obtain ⟨link, member, rfl⟩ := linked
        right
        have stage := serial.staged link member process left
        cases process with
        | ask request branch =>
          cases acts
          obtain ⟨rfl, ready⟩ := stage.record
          exact ⟨link, member, line, act?_of_running current rfl, ready.late⟩
        | _ => cases acts
      · have plain := serial.others owner process left fun link member same =>
          linked ⟨link, member, same⟩
        exact absurd rfl (plain.allowed acts session line)
    · left
      constructor
      · intro number
        cases process with
        | ask request branch =>
          have silent : request.line? = none := by
            cases request with
            | record session line => exact absurd ⟨session, line, rfl⟩ speaks
            | _ => rfl
          cases owner <;> simp [World.writes?, World.act?, current, Process.act?, silent]
        | _ => cases owner <;> simp [World.writes?, World.act?, current, Process.act?]
      · intro session
        cases process with
        | ask request branch =>
          cases request with
          | record session line => exact absurd ⟨session, line, rfl⟩ speaks
          | _ => simp [World.written?, World.act?, current, Process.act?]
        | _ => simp [World.written?, World.act?, current, Process.act?]

theorem unsettled_of_busy (serial : Serial passed world) {act : Act}
    (acts : world.act? = some (.task link.number, act)) :
    world.outcome? link.number = none := by
  obtain ⟨process, running, _⟩ := running_of_act? acts
  exact (serial.wired.released _ (by simp [busy, running])).2.1

/-- Links after one that has not ended have written nothing. -/
theorem silent_after (serial : Serial passed world) (member : link ∈ passed.links)
    (unsettled : world.outcome? link.number = none) {other : Link} (member' : other ∈ passed.links)
    (mine : other.session = link.session) (after : link.number < other.number) :
    passed.said other.number = [] := by
  by_contra begun
  have ended := serial.settled_of_late member' (serial.late_of_begun member' begun) member mine.symm
    after
  simp [unsettled] at ended

theorem eq_of_number (serial : Serial passed world) {other : Link} (member : link ∈ passed.links)
    (member' : other ∈ passed.links) (same : other.number = link.number) : other = link := by
  by_contra differs
  rcases List.pairwise_iff_getElem.1 serial.increasing with increasing
  obtain ⟨place, inside, rfl⟩ := List.getElem_of_mem member
  obtain ⟨place', inside', rfl⟩ := List.getElem_of_mem member'
  rcases Nat.lt_trichotomy place place' with before | rfl | after
  · exact absurd same (Nat.ne_of_gt (increasing place place' inside inside' before))
  · exact differs rfl
  · exact absurd same (Nat.ne_of_lt (increasing place' place inside' inside after))

/-- A line is the last of all that the links of its session have written, link by link. -/
theorem spoken_step (serial : Serial passed world) (session : Nat) :
    passed.written session ++ (world.written? session).toList =
      (passed.links.filter (·.session = session)).flatMap fun link =>
        passed.said link.number ++ (world.writes? link.number).toList := by
  rw [serial.spoken session]
  rcases serial.hear with ⟨silent, mute⟩ | ⟨link, member, line, acts, late⟩
  · simp [silent, mute]
  · have unsettled := serial.unsettled_of_busy acts
    have writes (number : Nat) :
        world.writes? number = if link.number = number then some line else none := by
      simp only [World.writes?, acts, Request.line?]
    have heard : world.written? session = if link.session = session then some line else none := by
      simp [World.written?, acts]
    by_cases mine : link.session = session
    · obtain ⟨before, after, split⟩ := List.append_of_mem member
      have increasing := serial.increasing
      rw [split, List.pairwise_append, List.pairwise_cons] at increasing
      obtain ⟨_, ⟨later, _⟩, earlier⟩ := increasing
      have inAfter (other : Link) (inside : other ∈ after) : other ∈ passed.links := by
        simp [split, inside]
      have same : ((before.filter (·.session = session)).flatMap fun other =>
          passed.said other.number ++ (world.writes? other.number).toList) =
          (before.filter (·.session = session)).flatMap fun other => passed.said other.number := by
        refine List.flatMap_congr fun other inside => ?_
        have inside := (List.mem_filter.1 inside).1
        rw [writes, if_neg (Nat.ne_of_gt (earlier other inside link (by simp)))]
        simp
      have empty : ((after.filter (·.session = session)).flatMap fun other =>
          passed.said other.number) = [] := by
        simp only [List.flatMap_eq_nil_iff, List.mem_filter, decide_eq_true_eq, and_imp]
        intro other inside theirs
        exact serial.silent_after member unsettled (inAfter other inside) (theirs.trans mine.symm)
          (later other inside)
      have empty' : ((after.filter (·.session = session)).flatMap fun other =>
          passed.said other.number ++ (world.writes? other.number).toList) = [] := by
        simp only [List.flatMap_eq_nil_iff, List.mem_filter, decide_eq_true_eq, and_imp]
        intro other inside theirs
        rw [serial.silent_after member unsettled (inAfter other inside) (theirs.trans mine.symm)
          (later other inside), writes, if_neg (Nat.ne_of_lt (later other inside))]
        rfl
      have self : world.writes? link.number = some line := by rw [writes, if_pos rfl]
      rw [heard, if_pos mine, split]
      simp only [List.filter_append, List.flatMap_append, List.filter_cons, mine, decide_true,
        if_true, List.flatMap_cons, same, empty, empty', self, List.append_nil,
        List.append_assoc, Option.toList_some]
    · rw [heard, if_neg mine]
      simp only [Option.toList_none, List.append_nil]
      refine List.flatMap_congr fun other inside => ?_
      obtain ⟨member', theirs⟩ := List.mem_filter.1 inside
      rw [writes, if_neg]
      · simp
      · intro equal
        rw [← serial.eq_of_number member member' equal.symm] at mine
        exact mine (by simpa using theirs)

/-! ## The chain is serial in every run -/

theorem writes?_lt {number : Nat} (wired : world.Wired world.busy)
    (writes : (world.writes? number).isSome) : number < world.tasks.length := by
  unfold World.writes? at writes
  split at writes
  · rename_i speaker request acts
    split at writes
    · rename_i same
      subst same
      obtain ⟨process, running, _⟩ := running_of_act? acts
      exact process?_lt wired (process?_of_running running)
    · cases writes
  · cases writes

/-- What is added from a link is mute, as all that links do. -/
theorem mute_of_add (serial : Serial passed world) {owner : Owner} {role : Role} {name : String}
    {body : Process} (acts : world.act? = some (owner, .add role name body)) :
    body.Obeys mute := by
  obtain ⟨process, running, adds⟩ := running_of_act? acts
  have left := process?_of_running running
  by_cases linked : ∃ link ∈ passed.links, owner = .task link.number
  · obtain ⟨link, member, rfl⟩ := linked
    exact (serial.staged link member process left).add adds
  · have plain := serial.others owner process left fun link member same =>
      linked ⟨link, member, same⟩
    cases process with
    | add role name body branch =>
      cases adds
      exact plain.work trivial
    | _ => cases adds

/-- The link that a step makes waits for the one before it, or opens. -/
theorem staged_new (serial : Serial passed world) {process : Process}
    (evolves : world.Evolves next (.task world.tasks.length) process) :
    ∃ new, world.link? = some new ∧ Stage next new [] process := by
  have old {before : Process} (left : world.process? (.task world.tasks.length) = some before) :
      False := Nat.lt_irrefl _ (process?_lt serial.wired left)
  cases evolves with
  | passes left => exact (old left).elim
  | asks running => exact (old (process?_of_running running)).elim
  | calls running => exact (old (process?_of_running running)).elim
  | leaves running => exact (old (process?_of_running running)).elim
  | adds running => exact (old (process?_of_running running)).elim
  | @added owner role name body acts looping =>
    have made : world.link? = some ⟨world.tasks.length, world.recorder.session,
        world.recorder.tail, some (name, body)⟩ := by
      simp [World.link?, acts, looping]
    have plain := serial.mute_of_add acts
    refine ⟨_, made, ?_⟩
    rw [Recorder.task_toProcess]
    cases tail : world.recorder.tail with
    | none => exact .opens rfl plain fun number behind => by cases behind
    | some number => exact .waits rfl rfl plain
  | @stands owner role number acts tail unsettled looping =>
    have made : world.link? = some ⟨world.tasks.length, world.recorder.session, some number,
        none⟩ := by
      simp [World.link?, acts, tail, unsettled, looping]
    exact ⟨_, made, .stands rfl rfl⟩
  | told caller => cases caller

theorem length_of_link {new : Link} (stepped : world.Stepped next)
    (made : world.link? = some new) : next.tasks.length = world.tasks.length + 1 := by
  have active {owner : Owner} {process : Process} {act : Act}
      (running : world.current = some (owner, process)) (acts : process.act? = some act) :
      world.act? = some (owner, act) := act?_of_running running acts
  cases stepped with
  | @asks owner request branch running =>
    cases request with
    | recorder role call =>
      cases call with
      | recover =>
        rcases recover_cases world with
          ⟨_, ⟨_, still⟩ | ⟨_, ended⟩⟩ | ⟨previous, tail, unsettled, looping, result⟩
        · cases tail : world.recorder.tail <;>
            simp [World.link?, active running rfl, tail, still] at made
        · cases tail : world.recorder.tail with
          | none => simp [World.link?, active running rfl, tail] at made
          | some previous => simp [World.link?, active running rfl, tail, ended previous tail] at made
        · change world.recover.2.tasks.length = _
          simp [result, spawn]
      | _ => simp [World.link?, active running rfl] at made
    | _ => simp [World.link?, active running rfl] at made
  | @adds owner role name body branch running =>
    rcases addTask_cases world name body with ⟨looping, result⟩ | ⟨looping, result⟩
    · simp [World.link?, active running rfl, looping] at made
    · change (world.addTask name body).2.tasks.length = _
      simp [result, spawn]
  | calls running => simp [World.link?, active running rfl] at made
  | leaves running => simp [World.link?, active running rfl] at made
  | ends running => simp [World.link?, World.act?, running, Process.act?] at made
  | notices idle => simp [World.link?, World.act?, idle] at made
  | passes waits calm =>
    unfold World.link? at made
    split at made
    · rename_i acts
      exact (waits _ _ acts).elim
    · rename_i acts
      exact (waits _ _ acts).elim
    · cases made

/-- Nothing ends cancelled. -/
theorem uncancelled_step (serial : Serial passed world) (stepped : world.Stepped next) :
    next.Uncancelled := by
  intro number cancelled
  rcases stepped.outcome? number with same | ⟨outcome, running, ended⟩
  · exact serial.uncancelled number (same ▸ cancelled)
  · have left := process?_of_running running
    have plain : Uncancelled outcome := by
      by_cases linked : ∃ link ∈ passed.links, Owner.task number = .task link.number
      · obtain ⟨link, member, same⟩ := linked
        cases same
        exact (serial.staged link member _ left).uncancelled serial.uncancelled
      · have mute := serial.others _ _ left fun link member same => linked ⟨link, member, same⟩
        cases mute with
        | stop plain => exact plain
    exact plain (Option.some.inj (ended.symm.trans cancelled))

theorem step (serial : Serial passed world) (moved : world.step? = some next) :
    Serial (passed ++ [world]) next := by
  have stepped := step?_stepped serial.wired moved
  have wired := serial.wired.step moved
  have uncancelled := serial.uncancelled_step stepped
  have settled (number : Nat) (ended : (world.outcome? number).isSome) :
      (next.outcome? number).isSome := by
    obtain ⟨outcome, ended⟩ := Option.isSome_iff_exists.1 ended
    rw [stepped.settled serial.wired ended]
    rfl
  have quiet (number : Nat) (beyond : world.tasks.length ≤ number) :
      world.writes? number = none := by
    by_contra writes
    exact Nat.not_lt_of_le beyond
      (writes?_lt serial.wired (Option.isSome_iff_ne_none.2 writes))
  have chained := chained_after world
  rw [← stepped.recorder] at chained
  have newNumber (new : Link) (made : world.link? = some new) :
      new.number = world.tasks.length ∧ new.session = world.recorder.session ∧
        new.previous = world.recorder.tail := by
    rw [made] at chained
    cases chained with
    | links session tail number mine previous => exact ⟨number, mine, previous⟩
  have newSaid (new : Link) (made : world.link? = some new) :
      passed.said new.number ++ (world.writes? new.number).toList = [] := by
    obtain ⟨number, _, _⟩ := newNumber new made
    rw [number, serial.silent _ (Nat.le_refl _), quiet _ (Nat.le_refl _)]
    rfl
  have member {link : Link} : link ∈ History.links (passed ++ [world]) ↔
      link ∈ passed.links ∨ world.link? = some link := by
    rw [History.links_append, List.mem_append, Option.mem_toList]
  constructor
  case wired => exact wired
  case uncancelled => exact uncancelled
  case increasing =>
    rw [History.links_append, List.pairwise_append]
    refine ⟨serial.increasing, ?_, ?_⟩
    · cases world.link? <;> simp
    · intro link inside new made
      rw [(newNumber new (Option.mem_toList.1 made)).1]
      exact serial.inside link inside
  case inside =>
    intro link made
    rcases member.1 made with old | made
    · exact Nat.lt_of_lt_of_le (serial.inside link old) stepped.length
    · rw [length_of_link stepped made, (newNumber link made).1]
      exact Nat.lt_succ_self _
  case staged =>
    intro link made after left
    rw [History.said_append]
    rcases member.1 made with old | made
    · obtain ⟨before, left'⟩ := process?_isSome (serial.inside link old)
      refine (serial.staged link old before left').step serial.uncancelled uncancelled serial.wired
        stepped left' ?_ left
      intro previous behind
      exact Nat.lt_trans ((serial.follows link old).anchored previous behind).1
        (serial.inside link old)
    · obtain ⟨number, _, _⟩ := newNumber link made
      obtain ⟨new, made', stage⟩ := serial.staged_new (stepped.evolves (number ▸ left))
      cases Option.some.inj (made.symm.trans made')
      rwa [newSaid link made]
  case others =>
    intro owner process left apart
    have evolves := stepped.evolves left
    have old : owner ≠ .task world.tasks.length := by
      rintro rfl
      obtain ⟨new, made, _⟩ := serial.staged_new evolves
      exact apart new (member.2 (.inr made)) (by rw [(newNumber new made).1])
    refine evolves.obeys uncancelled mute_closed (fun _ _ => trivial) (fun _ _ => trivial)
      (fun request _ => serial.uncancelled.fair request) (fun _ _ _ _ _ => trivial) (by simp [mute]) old
      fun before left' => ?_
    exact serial.others owner before left' fun link inside => apart link (member.2 (.inl inside))
  case silent =>
    intro number beyond
    have beyond := Nat.le_trans stepped.length beyond
    rw [History.said_append, serial.silent number beyond, quiet number beyond]
    rfl
  case sessions =>
    intro link made
    have upTo : world.recorder.session ≤ next.recorder.session := by
      generalize world.link? = link? at chained
      cases chained with
      | keeps session tail => exact Nat.le_of_eq session.symm
      | links session tail number mine previous => exact Nat.le_of_eq session.symm
      | frees session tail ended => exact Nat.le_of_eq session.symm
      | starts session tail => exact session ▸ Nat.le_succ _
    rcases member.1 made with old | made
    · exact Nat.le_trans (serial.sessions link old) upTo
    · rw [(newNumber link made).2.1]
      exact upTo
  case follows =>
    intro link made
    rw [History.links_append]
    rcases member.1 made with old | made
    · refine (serial.follows link old).grow _ ?_ settled
      intro new made _
      rw [(newNumber new (Option.mem_toList.1 made)).1]
      exact Nat.le_of_lt (serial.inside link old)
    · obtain ⟨number, mine, previous⟩ := newNumber link made
      rw [number, mine, previous]
      refine serial.tail.grow _ ?_ settled
      intro new made _
      exact Nat.le_of_eq (newNumber new (Option.mem_toList.1 made)).1.symm
  case tail =>
    rw [History.links_append]
    generalize made : world.link? = link? at chained
    cases chained with
    | keeps session tail =>
      rw [session, tail]
      simp only [Option.toList_none, List.append_nil]
      constructor
      · intro number behind
        obtain ⟨below, anchor⟩ := serial.tail.anchored number behind
        exact ⟨Nat.lt_of_lt_of_le below stepped.length, anchor⟩
      · intro link inside mine _
        obtain ⟨upTo, ended⟩ := serial.tail.covered link inside mine (serial.inside link inside)
        exact ⟨upTo, fun none => settled _ (ended none)⟩
    | @links new session tail number mine previous =>
      rw [session, tail]
      have length := length_of_link stepped made
      constructor
      · rintro _ ⟨⟩
        exact ⟨by omega, new, by simp, number, mine⟩
      · intro link inside _ _
        refine ⟨?_, by simp⟩
        rintro _ ⟨⟩
        rcases List.mem_append.1 inside with old | made
        · exact Nat.le_of_lt (serial.inside link old)
        · cases Option.some.inj (Option.mem_toList.1 made)
          exact Nat.le_of_eq number
    | frees session tail ended =>
      rw [session, tail]
      simp only [Option.toList_none, List.append_nil]
      constructor
      · simp
      · intro link inside mine _
        refine ⟨by simp, fun _ => settled _ ?_⟩
        exact serial.settled_of_follows serial.tail ended link inside mine
          (serial.inside link inside)
    | starts session tail =>
      rw [session, tail]
      simp only [Option.toList_none, List.append_nil]
      constructor
      · simp
      · intro link inside mine _
        have upTo := serial.sessions link inside
        omega
  case spoken =>
    intro session
    rw [History.written_append, serial.spoken_step session, History.links_append]
    simp only [History.said_append, List.filter_append, List.flatMap_append]
    have new : ((world.link?.toList.filter (·.session = session)).flatMap fun link =>
        passed.said link.number ++ (world.writes? link.number).toList) = [] := by
      simp only [List.flatMap_eq_nil_iff, List.mem_filter, Option.mem_toList]
      exact fun link made => newSaid link made.1
    rw [new, List.append_nil]

/-- Between steps only what is mute may come. -/
theorem outside (serial : Serial passed world) (wired : next.Wired next.busy)
    (recorder : next.recorder = world.recorder) (length : world.tasks.length ≤ next.tasks.length)
    (outcomes : ∀ number, next.outcome? number = world.outcome? number)
    (processes : ∀ owner after, next.process? owner = some after →
      (∃ before, world.process? owner = some before ∧ before.Passes next after) ∨
      (∀ number, owner = .task number → world.tasks.length ≤ number) ∧ after.Obeys mute) :
    Serial passed next := by
  have settled (number : Nat) (ended : (world.outcome? number).isSome) :
      (next.outcome? number).isSome := by rwa [outcomes]
  have uncancelled : next.Uncancelled := fun number => by
    rw [outcomes]
    exact serial.uncancelled number
  constructor
  case wired => exact wired
  case uncancelled => exact uncancelled
  case increasing => exact serial.increasing
  case inside => exact fun link member => Nat.lt_of_lt_of_le (serial.inside link member) length
  case staged =>
    intro link member after left
    rcases processes _ after left with ⟨before, left', passes⟩ | ⟨new, _⟩
    · refine ((serial.staged link member before left').congr ?_).passes uncancelled ?_ passes
      · exact fun number outcome ended => (outcomes number).trans ended
      · intro previous behind
        exact Nat.lt_of_lt_of_le (Nat.lt_trans
          ((serial.follows link member).anchored previous behind).1 (serial.inside link member))
          length
    · exact absurd (serial.inside link member) (Nat.not_lt_of_le (new link.number rfl))
  case others =>
    intro owner after left apart
    rcases processes owner after left with ⟨before, left', passes⟩ | ⟨_, plain⟩
    · exact passes.obeys uncancelled mute_closed (fun _ _ => trivial)
        (serial.others owner before left' apart)
    · exact plain
  case silent => exact fun number beyond => serial.silent number (Nat.le_trans length beyond)
  case sessions => exact fun link member => recorder ▸ serial.sessions link member
  case follows =>
    intro link member
    have grown := (serial.follows link member).grow [] (by simp) settled
    simpa using grown
  case tail =>
    rw [recorder]
    constructor
    · intro number behind
      obtain ⟨below, anchor⟩ := serial.tail.anchored number behind
      exact ⟨Nat.lt_of_lt_of_le below length, anchor⟩
    · intro link member mine _
      obtain ⟨upTo, ended⟩ := serial.tail.covered link member mine (serial.inside link member)
      exact ⟨upTo, fun none => settled _ (ended none)⟩
  case spoken => exact serial.spoken

theorem between (serial : Serial passed world)
    (between : world.Between (Intervention fun process => process.Obeys mute) next) :
    Serial passed next := by
  have wired : next.Wired next.busy :=
    serial.wired.between between fun comes => comes.wired serial.wired
  rcases between.calm_or with calm | comes
  · exact serial.outside wired calm.toFlows.recorder (Nat.le_of_eq calm.length.symm) calm.outcomes
      fun owner after left => .inl (calm.passes owner after left)
  · cases comes with
    | @enters process brought idle =>
      refine serial.outside wired rfl (Nat.le_refl _) (fun _ => rfl) fun owner after left => ?_
      cases owner with
      | caller =>
        cases left
        exact .inr ⟨by simp, brought⟩
      | task number =>
        exact .inl ⟨after, (process?_of_idle idle).trans left, .refl after⟩
    | @spawns process brought =>
      refine serial.outside wired rfl (by simp [spawn]) (outcome?_spawn process)
        fun owner after left => ?_
      rw [process?_spawn serial.wired] at left
      split at left
      · rename_i new
        cases left
        subst new
        exact .inr ⟨fun number same => Nat.le_of_eq (Owner.task.inj same), brought⟩
      · exact .inl ⟨after, left, .refl after⟩
    | watches task callable =>
      have calm : world.Calm (world.watch task (.notify callable)) := .watch task _
      exact serial.outside wired rfl (Nat.le_of_eq calm.length.symm) calm.outcomes
        fun owner after left => .inl (calm.passes owner after left)
    | alters apart =>
      have tasks : next.tasks = world.tasks := by rw [apart]
      have current : next.current = world.current := by rw [apart]
      refine serial.outside wired (by rw [apart]) (Nat.le_of_eq (congrArg _ tasks.symm)) ?_ ?_
      · exact fun number => by simp only [outcome?, state?, tasks]
      · intro owner after left
        exact .inl ⟨after, by rwa [← process?_congr tasks current], .refl after⟩

theorem initial (clock : Calendar.Moment) : Serial [] (World.initial clock) where
  wired := wired_initial clock
  uncancelled number := by simp [World.initial, outcome?, state?]
  increasing := .nil
  inside := by simp [History.links]
  staged := by simp [History.links]
  others owner process left := by cases owner <;> cases left
  silent := by simp [History.said]
  sessions := by simp [History.links]
  follows := by simp [History.links]
  tail := ⟨by simp [World.initial, Recorder.initial], by simp [History.links]⟩
  spoken := by simp [History.links, History.written]

/-- What holds of every run in which only mute processes come from outside. -/
theorem of_run {clock : Calendar.Moment}
    (run : Run (Intervention fun process => process.Obeys mute) (World.initial clock) passed world) :
    Serial passed world := by
  induction run with
  | refl => exact initial clock
  | step _ moved ih => exact ih.step moved
  | between _ between ih => exact ih.between between

end Serial

/-! ## What had been added -/

/-- The tasks of the present session that had been added have ended. -/
def Settled (early : History) (returning world : World) : Prop :=
  ∀ link ∈ early.links, link.session = returning.recorder.session →
    (world.outcome? link.number).isSome

/-- A task of the chain comes after all that had been added. -/
def Covers (passed early : History) (returning : World) (task : Nat) : Prop :=
  ∃ anchor ∈ passed.links, anchor.number = task ∧ anchor.session = returning.recorder.session ∧
    ∀ link ∈ early.links, link.session = returning.recorder.session → link.number ≤ task

section Settled

variable {passed early : History} {world next returning : World} {task : Nat}

theorem Settled.mono (settled : Settled early returning world)
    (stays : ∀ number outcome, world.outcome? number = some outcome →
      next.outcome? number = some outcome) : Settled early returning next := by
  intro link member mine
  obtain ⟨outcome, ended⟩ := Option.isSome_iff_exists.1 (settled link member mine)
  rw [stays _ _ ended]
  rfl

theorem Covers.further (covers : Covers passed early returning task) {longer : History}
    (kept : ∀ link ∈ passed.links, link ∈ longer.links) : Covers longer early returning task := by
  obtain ⟨anchor, member, known⟩ := covers
  exact ⟨anchor, kept anchor member, known⟩

theorem Covers.append (covers : Covers passed early returning task) (world : World) :
    Covers (passed ++ [world]) early returning task := by
  refine covers.further fun link member => ?_
  rw [History.links_append]
  exact List.mem_append_left _ member

theorem Covers.settled {outcome : Outcome}
    (covers : Covers passed early returning task) (serial : Serial passed world)
    (earlier : ∀ link ∈ early.links, link ∈ passed.links)
    (ended : world.outcome? task = some outcome) : Settled early returning world := by
  obtain ⟨anchor, member, rfl, session, upTo⟩ := covers
  intro link member' mine
  have settled : (world.outcome? anchor.number).isSome := by simp [ended]
  rcases Nat.lt_or_eq_of_le (upTo link member' mine) with before | same
  · exact serial.settled_of_late member (serial.late_of_settled member settled)
      (earlier link member') (mine.trans session.symm) before
  · rwa [same]

/-- The chain covers what has been added. -/
theorem Serial.covers (serial : Serial passed world) (chain : world.recorder.tail = some task) :
    Covers passed passed world task := by
  obtain ⟨_, anchor, member, number, session⟩ := serial.tail.anchored task chain
  refine ⟨anchor, member, number, session, fun link added mine => ?_⟩
  exact (serial.tail.covered link added mine (serial.inside link added)).1 task chain

/-- Without a chain, what has been added has ended. -/
theorem Serial.settled_of_free (serial : Serial passed world) (free : world.recorder.tail = none) :
    Settled passed world world :=
  fun link added mine => (serial.tail.covered link added mine (serial.inside link added)).2 free

end Settled

end FeatureRunner

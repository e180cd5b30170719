import ChipEight.EventLoop
import ChipEight.Proofs.Execute
import ChipEight.Proofs.Run

/-! Runs of the loop amid its surroundings. Before each of its moves signals may be sent and the
sender may hang up; the keys held and the clock reading at a move are arbitrary. A run is a list of
such incidents. Its history keeps the loop as each incident met it, so that what was sent, handled
and carried out can be read off a history. -/
namespace ChipEight

/-- What comes next: something that the sender does, or the loop's next move. -/
inductive Incident
  | send (signal : Signal)
  | hangUp
  | move (keys : Key → Bool) (now : Instant)

/-- An incident and the loop that meets it. -/
structure Moment where
  loop : Loop
  incident : Incident

namespace Loop

/-- A sender that has hung up sends nothing. -/
def meet (loop : Loop) : Incident → Loop
  | .send signal =>
    if loop.channel.connected then { loop with channel := loop.channel.send [signal] } else loop
  | .hangUp => { loop with channel := loop.channel.hangUp }
  | .move keys now => loop.advance keys now

def follow : List Incident → Loop → Loop
  | [], loop => loop
  | incident :: rest, loop => follow rest (loop.meet incident)

def history : List Incident → Loop → List Moment
  | [], _ => []
  | incident :: rest, loop => ⟨loop, incident⟩ :: history rest (loop.meet incident)

/-- Three moves, as many as a due task takes, at each of the times; no key is held. -/
def turns (times : List Instant) : List Incident :=
  times.flatMap fun now => List.replicate 3 (.move (fun _ => false) now)

end Loop

namespace Move

/-- The signal that is taken and handled. -/
def handled? : Move → Option Signal
  | receive signal => some signal
  | _ => none

/-- The task that is carried out, and when it was due. -/
def fired? : Move → Option (Task × Instant)
  | perform task due => some (task, due)
  | _ => none

def hearsHangUp : Move → Bool
  | hearHangUp _ => true
  | _ => false

end Move

namespace Moment

def next (moment : Moment) : Loop := moment.loop.meet moment.incident

def move? (moment : Moment) : Option Move :=
  match moment.incident with
  | .move _ now => some (moment.loop.move now)
  | .send _ | .hangUp => none

def sent? (moment : Moment) : Option Signal :=
  match moment.incident with
  | .send signal => if moment.loop.channel.connected then some signal else none
  | .hangUp | .move .. => none

def handled? (moment : Moment) : Option Signal := moment.move?.bind Move.handled?

def fired? (moment : Moment) : Option (Task × Instant) := moment.move?.bind Move.fired?

def hearsHangUp (moment : Moment) : Bool := moment.move?.any Move.hearsHangUp

/-- The step of a cycle, if one is carried out: the keys held, the time and the machine, with the
deadline of the cycle used up. -/
def step? (moment : Moment) : Option ((Key → Bool) × Instant × Machine) :=
  match moment.incident, moment.fired? with
  | .move keys now, some (.cycle, _) =>
    let m := moment.loop.machine
    some (keys, now, { m with agenda := m.agenda.cancel .cycle })
  | _, _ => none

/-- The instruction that is carried out without a fault. -/
def executes? (moment : Moment) : Option Instruction :=
  moment.step?.bind fun (keys, now, m) => m.carriesOut? keys now

def fault? (moment : Moment) : Option Fault :=
  moment.step?.bind fun (keys, now, m) => m.fault? keys now

theorem bind_step?_eq_some_iff {moment : Moment} {found : α}
    {find : (Key → Bool) → Instant → Machine → Option α} :
    (moment.step?.bind fun (keys, now, m) => find keys now m) = some found ↔
      ∃ keys now due, moment.incident = .move keys now ∧ moment.fired? = some (.cycle, due) ∧
        find keys now { moment.loop.machine with agenda := moment.loop.machine.agenda.cancel .cycle } =
          some found := by
  constructor
  · intro finds
    unfold step? at finds
    split at finds
    next keys now due incident fired => exact ⟨keys, now, due, incident, fired, finds⟩
    next => contradiction
  · rintro ⟨keys, now, due, incident, fired, finds⟩
    simp only [step?, incident, fired]
    exact finds

theorem executes?_eq_some_iff {moment : Moment} {instruction : Instruction} :
    moment.executes? = some instruction ↔
      ∃ keys now due, moment.incident = .move keys now ∧ moment.fired? = some (.cycle, due) ∧
        moment.loop.machine.cpu.awaiting = none ∧
        moment.loop.machine.cpu.current = .ok instruction := by
  simp only [executes?, bind_step?_eq_some_iff, Machine.carriesOut?_eq_some_iff]

theorem fault?_eq_some_iff {moment : Moment} {fault : Fault} :
    moment.fault? = some fault ↔
      ∃ keys now due, moment.incident = .move keys now ∧ moment.fired? = some (.cycle, due) ∧
        moment.loop.machine.cpu.awaiting = none ∧
        moment.loop.machine.cpu.current = .error fault := by
  simp only [fault?, bind_step?_eq_some_iff, Machine.fault?_eq_some_iff]

theorem fault?_eq_none {moment : Moment} (other : ∀ due, moment.fired? ≠ some (.cycle, due)) :
    moment.fault? = none := by
  refine Option.eq_none_iff_forall_not_mem.mpr ?_
  intro fault faulted
  obtain ⟨keys, now, due, incident, fired, refused⟩ := fault?_eq_some_iff.mp faulted
  exact other due fired

end Moment

namespace Loop

/-- What each move presupposes. A signal is taken only by a loop that listens; a hang-up is heard
only after the last signal. -/
inductive Ready (loop : Loop) (now : Instant) : Move → Prop
  | receive {signal : Signal} {rest : List Signal}
    (phase : loop.phase = .draining ∨ loop.phase = .parked ∨
      ∃ task due, loop.phase = .resting task due)
    (queued : loop.channel.queue = signal :: rest) : Ready loop now (.receive signal)
  | hearInTime (phase : loop.phase = .draining ∨ ∃ task due, loop.phase = .resting task due)
    (empty : loop.channel.queue = []) (hungUp : loop.channel.connected = false) :
    Ready loop now (.hearHangUp .returned)
  | hearParked (phase : loop.phase = .parked)
    (empty : loop.channel.queue = []) (hungUp : loop.channel.connected = false) :
    Ready loop now (.hearHangUp .draining)
  | findEmpty (phase : loop.phase = .draining)
    (empty : loop.channel.queue = []) (connected : loop.channel.connected = true) :
    Ready loop now (.enter .choosing)
  | rest {task : Task} {due : Instant} (phase : loop.phase = .choosing)
    (next : loop.machine.agenda.next? = some (task, due)) : Ready loop now (.enter (.resting task due))
  | attend {task : Task} {due : Instant} (phase : loop.phase = .choosing)
    (next : loop.machine.agenda.next? = some (task, due)) : Ready loop now (.enter (.due task due))
  | park (phase : loop.phase = .choosing) (idle : loop.machine.agenda.next? = none)
    (awaiting : loop.machine.cpu.awaiting ≠ none) : Ready loop now (.enter .parked)
  | finish (phase : loop.phase = .choosing) (idle : loop.machine.agenda.next? = none)
    (free : loop.machine.cpu.awaiting = none) : Ready loop now .finish
  | wake {task : Task} {due : Instant} (phase : loop.phase = .resting task due)
    (empty : loop.channel.queue = []) (connected : loop.channel.connected = true) :
    Ready loop now (.enter (.due task due))
  | perform {task : Task} {due : Instant} (phase : loop.phase = .due task due) :
    Ready loop now (.perform task due)
  | wait (quiet : loop.phase = .returned ∨
      (loop.phase = .parked ∨ ∃ task due, loop.phase = .resting task due) ∧
        loop.channel.queue = [] ∧ loop.channel.connected = true) : Ready loop now .wait

theorem ready_move (loop : Loop) (now : Instant) : loop.Ready now (loop.move now) := by
  have listens (phase : Phase) (idle : Move)
      (listening : loop.phase = .draining ∨ loop.phase = .parked ∨
        ∃ task due, loop.phase = .resting task due)
      (hears : loop.channel.queue = [] → loop.channel.connected = false →
        loop.Ready now (.hearHangUp phase))
      (idles : loop.channel.queue = [] → loop.channel.connected = true → loop.Ready now idle) :
      loop.Ready now (loop.take phase idle) := by
    unfold take
    cases queued : loop.channel.queue with
    | cons signal rest => exact .receive listening queued
    | nil =>
      cases connected : loop.channel.connected with
      | true => exact idles queued connected
      | false => exact hears queued connected
  unfold move
  cases phase : loop.phase with
  | draining => exact listens _ _ (.inl phase) (.hearInTime (.inl phase)) (.findEmpty phase)
  | choosing =>
    simp only [choose]
    split
    next task due next =>
      split
      · exact .rest phase next
      · exact .attend phase next
    next idle =>
      cases awaited : loop.machine.cpu.awaiting with
      | some x => exact .park phase idle (by simp [awaited])
      | none => exact .finish phase idle awaited
  | parked =>
    exact listens _ _ (.inr (.inl phase)) (.hearParked phase)
      fun empty connected => .wait (.inr ⟨.inl phase, empty, connected⟩)
  | resting task due =>
    refine listens _ _ (.inr (.inr ⟨task, due, phase⟩)) (.hearInTime (.inr ⟨task, due, phase⟩)) ?_
    intro empty connected
    split
    · exact .wait (.inr ⟨.inr ⟨task, due, phase⟩, empty, connected⟩)
    · exact .wake phase empty connected
  | due task due => exact .perform phase
  | returned => exact .wait (.inl phase)

@[simp] theorem phase_meet_send (loop : Loop) (signal : Signal) :
    (loop.meet (.send signal)).phase = loop.phase := by
  simp only [meet]
  split <;> rfl

@[simp] theorem machine_meet_send (loop : Loop) (signal : Signal) :
    (loop.meet (.send signal)).machine = loop.machine := by
  simp only [meet]
  split <;> rfl

/-- A task that the loop is to carry out is the next one. -/
def Prompt (loop : Loop) : Prop :=
  ∀ task due, loop.phase = .resting task due ∨ loop.phase = .due task due →
    loop.machine.agenda.next? = some (task, due)

theorem Prompt.of_draining {loop : Loop} (draining : loop.phase = .draining) : loop.Prompt := by
  simp [Prompt, draining]

theorem Prompt.apply {loop : Loop} {move : Move} {now : Instant} (prompt : loop.Prompt)
    (keys : Key → Bool) (ready : loop.Ready now move) : (loop.apply keys now move).Prompt := by
  cases ready with
  | rest _ next | attend _ next =>
    rintro task due (same | same) <;> simp_all [Loop.apply]
  | wake phase =>
    rintro task due (same | same)
    · simp [Loop.apply] at same
    · simp only [Loop.apply, Phase.due.injEq] at same
      exact same.1 ▸ same.2 ▸ prompt _ _ (.inl phase)
  | wait => exact prompt
  | _ => simp [Prompt, Loop.apply]

theorem Prompt.meet {loop : Loop} (prompt : loop.Prompt) (incident : Incident) :
    (loop.meet incident).Prompt := by
  cases incident with
  | send signal =>
    rw [Prompt, phase_meet_send, machine_meet_send]
    exact prompt
  | hangUp => exact prompt
  | move keys now => exact prompt.apply keys (loop.ready_move now)

theorem follow_append (earlier later : List Incident) (loop : Loop) :
    follow (earlier ++ later) loop = follow later (follow earlier loop) := by
  induction earlier generalizing loop with
  | nil => rfl
  | cons incident rest ih => exact ih _

theorem history_append (earlier later : List Incident) (loop : Loop) :
    history (earlier ++ later) loop = history earlier loop ++ history later (follow earlier loop) := by
  induction earlier generalizing loop with
  | nil => rfl
  | cons incident rest ih => exact congrArg _ (ih _)

theorem history_eq_append {incidents : List Incident} {loop : Loop} {before after : List Moment}
    (split : history incidents loop = before ++ after) :
    ∃ earlier later, incidents = earlier ++ later ∧ history earlier loop = before ∧
      history later (follow earlier loop) = after := by
  induction before generalizing incidents loop with
  | nil => exact ⟨[], incidents, rfl, rfl, split⟩
  | cons moment before ih =>
    cases incidents with
    | nil => simp [history] at split
    | cons incident rest =>
      obtain ⟨same, split⟩ := List.cons.inj split
      obtain ⟨earlier, later, rfl, first, second⟩ := ih split
      exact ⟨incident :: earlier, later, rfl, by rw [history, same, first], second⟩

/-- Every moment of a history is met by the loop that the run has led to by then. -/
theorem history_eq_append_cons {incidents : List Incident} {loop : Loop}
    {before after : List Moment} {moment : Moment}
    (split : history incidents loop = before ++ moment :: after) :
    ∃ earlier later, incidents = earlier ++ moment.incident :: later ∧
      history earlier loop = before ∧ moment.loop = follow earlier loop ∧
      history later moment.next = after := by
  obtain ⟨earlier, later, rfl, first, second⟩ := history_eq_append split
  cases later with
  | nil => simp [history] at second
  | cons incident later =>
    obtain ⟨rfl, after⟩ := List.cons.inj second
    exact ⟨earlier, later, rfl, first, rfl, after⟩

theorem take_history (n : Nat) (incidents : List Incident) (loop : Loop) :
    (history incidents loop).take n = history (incidents.take n) loop := by
  induction n generalizing incidents loop with
  | zero => rfl
  | succ n ih =>
    cases incidents with
    | nil => rfl
    | cons incident rest => simp [history, ih]

theorem drop_history (n : Nat) (incidents : List Incident) (loop : Loop) :
    (history incidents loop).drop n = history (incidents.drop n) (follow (incidents.take n) loop) := by
  induction n generalizing incidents loop with
  | zero => rfl
  | succ n ih =>
    cases incidents with
    | nil => rfl
    | cons incident rest => simp [history, follow, ih]

theorem getElem?_history {n : Nat} {incidents : List Incident} {loop : Loop} {moment : Moment}
    (found : (history incidents loop)[n]? = some moment) :
    moment.loop = follow (incidents.take n) loop ∧
      moment.next = follow (incidents.take (n + 1)) loop := by
  induction n generalizing incidents loop with
  | zero =>
    cases incidents with
    | nil => simp [history] at found
    | cons incident rest =>
      obtain rfl : ⟨loop, incident⟩ = moment := by simpa [history] using found
      exact ⟨rfl, rfl⟩
  | succ n ih =>
    cases incidents with
    | nil => simp [history] at found
    | cons incident rest => exact ih (by simpa [history] using found)

theorem follow_invariant {property : Loop → Prop}
    (kept : ∀ loop incident, property loop → property (loop.meet incident))
    (incidents : List Incident) (loop : Loop) (initial : property loop) :
    property (follow incidents loop) := by
  induction incidents generalizing loop with
  | nil => exact initial
  | cons incident rest ih => exact ih _ (kept loop incident initial)

theorem Prompt.follow {loop : Loop} (prompt : loop.Prompt) (incidents : List Incident) :
    (Loop.follow incidents loop).Prompt :=
  follow_invariant (fun _ incident prompt => prompt.meet incident) incidents loop prompt

end Loop

namespace Moment

/-- What becomes of the machine. Only a signal, the news of the hang-up or a task can change it,
and no moment brings two of these. -/
inductive Bears (moment : Moment) : Prop
  | nothing (unhandled : moment.handled? = none) (unheard : moment.hearsHangUp = false)
    (idle : moment.fired? = none) (same : moment.next.machine = moment.loop.machine)
  | signal {signal : Signal} {keys : Key → Bool} {now : Instant}
    (incident : moment.incident = .move keys now)
    (handled : moment.handled? = some signal) (unheard : moment.hearsHangUp = false)
    (idle : moment.fired? = none)
    (received : moment.next.machine = moment.loop.machine.receive now signal)
  | hangUp (unhandled : moment.handled? = none) (heard : moment.hearsHangUp = true)
    (idle : moment.fired? = none) (stopped : moment.next.machine = moment.loop.machine.stop)
  | task {task : Task} {due : Instant} {keys : Key → Bool} {now : Instant}
    (incident : moment.incident = .move keys now)
    (phase : moment.loop.phase = .due task due)
    (unhandled : moment.handled? = none) (unheard : moment.hearsHangUp = false)
    (fired : moment.fired? = some (task, due))
    (performed : moment.next.machine = moment.loop.machine.perform keys now task due)

theorem bears (moment : Moment) : moment.Bears := by
  obtain ⟨loop, incident⟩ := moment
  cases incident with
  | send signal => exact .nothing rfl rfl rfl (loop.machine_meet_send signal)
  | hangUp => exact .nothing rfl rfl rfl rfl
  | move keys now =>
    have ready := loop.ready_move now
    have next : (Moment.mk loop (.move keys now)).next.machine =
        (loop.apply keys now (loop.move now)).machine := rfl
    cases moved : loop.move now with
    | receive signal =>
      rw [moved] at next
      exact .signal rfl (congrArg Move.handled? moved) (congrArg Move.hearsHangUp moved)
        (congrArg Move.fired? moved) next
    | hearHangUp phase =>
      rw [moved] at next
      exact .hangUp (congrArg Move.handled? moved) (congrArg Move.hearsHangUp moved)
        (congrArg Move.fired? moved) next
    | perform task due =>
      rw [moved] at ready next
      cases ready with
      | perform phase =>
        exact .task rfl phase (congrArg Move.handled? moved) (congrArg Move.hearsHangUp moved)
          (congrArg Move.fired? moved) next
    | enter | finish | wait =>
      rw [moved] at next
      exact .nothing (congrArg Move.handled? moved) (congrArg Move.hearsHangUp moved)
        (congrArg Move.fired? moved) next

/-- What is done to the machine, if anything is. News of the hang-up does what a stop does. -/
def occasion? (moment : Moment) : Option Occasion :=
  match moment.incident with
  | .move keys now =>
    match moment.loop.move now with
    | .receive signal => some ⟨keys, now, .receive signal⟩
    | .hearHangUp _ => some ⟨keys, now, .receive .stop⟩
    | .perform task due => some ⟨keys, now, .perform task due⟩
    | .enter _ | .finish | .wait => none
  | .send _ | .hangUp => none

theorem machine_next (moment : Moment) :
    moment.next.machine = Machine.run moment.occasion?.toList moment.loop.machine := by
  obtain ⟨loop, incident⟩ := moment
  cases incident with
  | send signal => exact loop.machine_meet_send signal
  | hangUp => rfl
  | move keys now =>
    simp only [next, Loop.meet, Loop.advance, occasion?]
    cases loop.move now <;> rfl

end Moment

namespace Loop

def occasions (incidents : List Incident) (loop : Loop) : List Occasion :=
  (history incidents loop).filterMap Moment.occasion?

theorem occasions_cons (incident : Incident) (rest : List Incident) (loop : Loop) :
    occasions (incident :: rest) loop =
      (Moment.mk loop incident).occasion?.toList ++ occasions rest (loop.meet incident) := by
  rw [occasions, history, List.filterMap_cons]
  cases (Moment.mk loop incident).occasion? <;> rfl

/-- A loop does nothing to its machine but what machines offer. -/
theorem machine_follow (incidents : List Incident) (loop : Loop) :
    (follow incidents loop).machine = Machine.run (occasions incidents loop) loop.machine := by
  induction incidents generalizing loop with
  | nil => rfl
  | cons incident rest ih =>
    rw [follow, ih, occasions_cons, Machine.run_append]
    exact congrArg _ (Moment.mk loop incident).machine_next

end Loop
end ChipEight

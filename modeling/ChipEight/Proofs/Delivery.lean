import ChipEight.Proofs.Lifecycle
import ChipEight.Proofs.LoopRun
import Mathlib.Data.List.Basic

/-! What a loop makes of the signals sent to it. They are handled in the order sent and none is
lost; between two tasks the queue was found empty; and a loop whose end is in its channel carries
out at most one more task and returns after a bounded number of moves. If its end is there from the
start, it carries out none, and what was queued decides how the machine is left. -/
namespace ChipEight

/-- The loop looks for a signal without waiting, and there is none. -/
structure Moment.FindsEmpty (moment : Moment) : Prop where
  looks : moment.loop.phase = .draining
  moves : moment.move? ≠ none
  empty : moment.loop.channel.queue = []

namespace Loop

variable {loop : Loop} {move : Move} {now : Instant}

theorem Ready.phase_of_fired (ready : loop.Ready now move) (fired : move.fired? ≠ none)
    (keys : Key → Bool) :
    (∃ task due, loop.phase = .due task due) ∧ (loop.apply keys now move).phase = .draining := by
  cases ready with
  | perform phase => exact ⟨⟨_, _, phase⟩, rfl⟩
  | _ => exact absurd rfl fired

theorem Ready.queue_apply (ready : loop.Ready now move) (keys : Key → Bool) :
    loop.channel.queue = move.handled?.toList ++ (loop.apply keys now move).channel.queue := by
  cases ready with
  | receive phase queued => simp [Move.handled?, apply, queued]
  | _ => simp [Move.handled?, apply]

end Loop

theorem Moment.phase_of_fired {moment : Moment} (fired : moment.fired? ≠ none) :
    (∃ task due, moment.loop.phase = .due task due) ∧ moment.next.phase = .draining := by
  obtain ⟨loop, incident⟩ := moment
  cases incident with
  | send | hangUp => exact absurd rfl fired
  | move keys now => exact (loop.ready_move now).phase_of_fired fired keys

/-- What is in the queue and comes into it is what leaves it and what stays. -/
theorem Moment.queue_next (moment : Moment) :
    moment.loop.channel.queue ++ moment.sent?.toList =
      moment.handled?.toList ++ moment.next.channel.queue := by
  obtain ⟨loop, incident⟩ := moment
  cases incident with
  | send signal =>
    cases connected : loop.channel.connected <;>
      simp [sent?, handled?, move?, next, Loop.meet, Channel.send, connected]
  | hangUp => simp [sent?, handled?, move?, next, Loop.meet, Channel.hangUp]
  | move keys now => exact (List.append_nil _).trans ((loop.ready_move now).queue_apply keys)

/-- How many moves a loop in this phase makes at most before it returns, if its end is in its
channel. Those that take a signal are not counted. -/
def Phase.distance : Phase → Nat
  | .draining | .resting .. => 2
  | .parked | .due .. => 3
  | .choosing => 4
  | .returned => 0

/-- How many tasks it carries out at most before that. -/
def Phase.firings : Phase → Nat
  | .choosing | .due .. => 1
  | .draining | .parked | .resting .. | .returned => 0

namespace Machine

theorem Ended.agenda {m : Machine} (ended : m.Ended) : m.agenda = {} := by
  have disarmed (task : Task) : m.agenda.deadline task = none := by
    simpa [Agenda.isScheduled] using ended.disarmed task
  obtain ⟨cycle, delay, sound⟩ : m.agenda.cycle = none ∧ m.agenda.delay = none ∧
      m.agenda.sound = none := ⟨disarmed .cycle, disarmed .delay, disarmed .sound⟩
  cases agenda : m.agenda
  simp_all

theorem Ended.quiesce {m : Machine} (ended : m.Ended) : m.quiesce = m := by
  have agenda := ended.agenda
  have free := ended.free
  have delay : m.delay = ⟨0⟩ := congrArg Countdown.mk ended.delay
  have sound : m.sound = ⟨0⟩ := congrArg Countdown.mk ended.sound
  obtain ⟨settings, status, _, _, _, random, cpu, display⟩ := m
  cases cpu
  simp only at agenda delay sound free
  subst agenda delay sound free
  rfl

theorem Ended.stop {m : Machine} (ended : m.Ended) : m.stop = m := by
  have quiesced := ended.quiesce
  unfold Machine.stop
  rcases ended.status with ⟨fault, halted⟩ | stopped
  · simp only [halted, quiesced]
  · rw [quiesced, stopped]
    simp only
    rw [← stopped]

theorem Ended.receive {m : Machine} (ended : m.Ended) (now : Instant) (signal : Signal) :
    m.receive now signal = m := by
  cases signal with
  | keyDown key => simp only [Machine.receive, giveKey, ended.free]
  | stop => exact ended.stop

theorem Ended.next? {m : Machine} (ended : m.Ended) : m.agenda.next? = none := by
  rw [ended.agenda]
  rfl

/-- The signals of a queue as they are handled, the one in place `k` at the time `times k`. -/
def told (times : Nat → Instant) (signals : List Signal) : List Event :=
  signals.mapIdx fun k signal => .signal (times k) signal

theorem told_cons (times : Nat → Instant) (signal : Signal) (rest : List Signal) :
    told times (signal :: rest) =
      .signal (times 0) signal :: told (fun k => times (k + 1)) rest := by
  simp [told]

theorem pace_append (earlier later : List Event) (m : Machine) :
    pace (earlier ++ later) m = pace later (pace earlier m) := by
  induction earlier generalizing m with
  | nil => rfl
  | cons event rest ih => exact ih _

theorem Ended.pace_told {m : Machine} (ended : m.Ended) (times : Nat → Instant)
    (signals : List Signal) : pace (told times signals) m = m := by
  induction signals generalizing times with
  | nil => rfl
  | cons signal rest ih =>
    rw [told_cons, pace, handle, ended.receive, ih]

/-- Keys after a stop make no difference, and the stop makes that of the keys before it vanish. -/
theorem ended_pace_told {signals : List Signal} (stops : .stop ∈ signals) (times : Nat → Instant)
    (m : Machine) : (pace (told times signals) m).Ended := by
  induction signals generalizing times m with
  | nil => simp at stops
  | cons signal rest ih =>
    rw [told_cons, pace, handle]
    cases signal with
    | stop =>
      have ended := stop_ended m
      rw [receive, ended.pace_told]
      exact ended
    | keyDown key => exact ih (by simpa using stops) _ _

theorem stop_agenda (m : Machine) (agenda : Agenda) : { m with agenda }.stop = m.stop := by
  obtain ⟨_, status, _, _, _, _, _, _⟩ := m
  cases status <;> rfl

theorem receive_agenda (m : Machine) (agenda : Agenda) (now later : Instant) (signal : Signal) :
    ∃ left, { m with agenda }.receive later signal = { m.receive now signal with agenda := left } := by
  cases signal with
  | stop => exact ⟨m.stop.agenda, stop_agenda m agenda⟩
  | keyDown key =>
    unfold receive giveKey
    cases m.cpu.awaiting with
    | some x => exact ⟨_, rfl⟩
    | none => exact ⟨agenda, rfl⟩

/-- The times at which signals are handled show in nothing but the deadlines. -/
theorem pace_told_agenda (times other : Nat → Instant) (signals : List Signal) (m : Machine)
    (agenda : Agenda) : ∃ left, pace (told other signals) { m with agenda } =
      { pace (told times signals) m with agenda := left } := by
  induction signals generalizing times other m agenda with
  | nil => exact ⟨agenda, rfl⟩
  | cons signal rest ih =>
    obtain ⟨middle, received⟩ := receive_agenda m agenda (times 0) (other 0) signal
    simp only [told_cons, pace, handle, received]
    exact ih _ _ _ middle

end Machine

namespace Loop

/-- The end of the loop is in its channel. -/
def Closing (loop : Loop) : Prop :=
  .stop ∈ loop.channel.queue ∨ loop.channel.connected = false

theorem not_closing {loop : Loop} (empty : loop.channel.queue = [])
    (connected : loop.channel.connected = true) : ¬ loop.Closing := by
  simp [Closing, empty, connected]

/-- What the queued signals make of the machine, if nothing else happens to it. A sender that has
hung up stops it after the last of them. -/
def verdict (times : Nat → Instant) (loop : Loop) : Machine :=
  let m := Machine.pace (Machine.told times loop.channel.queue) loop.machine
  if loop.channel.connected then m else m.stop

theorem verdict_eq {loop : Loop} (closing : loop.Closing) (times other : Nat → Instant) :
    loop.verdict other = loop.verdict times := by
  obtain ⟨agenda, same⟩ := Machine.pace_told_agenda times other loop.channel.queue loop.machine
    loop.machine.agenda
  change Machine.pace (Machine.told other loop.channel.queue) loop.machine = _ at same
  unfold verdict
  cases connected : loop.channel.connected with
  | false => simp only [same, Machine.stop_agenda, Bool.false_eq_true, ↓reduceIte]
  | true =>
    have stops : .stop ∈ loop.channel.queue := closing.resolve_right (by simp [connected])
    have first := Machine.ended_pace_told stops times loop.machine
    have second := Machine.ended_pace_told stops other loop.machine
    simp only [↓reduceIte]
    rw [← second.stop, same, Machine.stop_agenda, first.stop]

/-! ## Order -/

theorem queue_history (incidents : List Incident) (loop : Loop) :
    loop.channel.queue ++ (history incidents loop).filterMap Moment.sent? =
      (history incidents loop).filterMap Moment.handled? ++
        (follow incidents loop).channel.queue := by
  simp only [List.filterMap_eq_flatMap_toList]
  induction incidents generalizing loop with
  | nil => simp [history, follow]
  | cons incident rest ih =>
    have first := Moment.queue_next ⟨loop, incident⟩
    simp only [history, follow, List.flatMap_cons]
    rw [← List.append_assoc, first, List.append_assoc, List.append_assoc]
    exact congrArg _ (ih _)

/-- From draining a loop gets to choosing a task only by finding the queue empty. -/
theorem Ready.phase_apply {loop : Loop} {move : Move} {now : Instant} (ready : loop.Ready now move)
    (keys : Key → Bool) (phase : loop.phase = .draining ∨ loop.phase = .returned)
    (missed : ¬ (loop.phase = .draining ∧ loop.channel.queue = [])) :
    (loop.apply keys now move).phase = .draining ∨ (loop.apply keys now move).phase = .returned := by
  cases ready with
  | receive => exact .inl rfl
  | hearInTime => exact .inr rfl
  | hearParked => exact .inl rfl
  | findEmpty phase empty => exact absurd ⟨phase, empty⟩ missed
  | rest choosing | attend choosing | park choosing => simp [choosing] at phase
  | wake resting => simp [resting] at phase
  | finish => exact .inr rfl
  | perform => exact .inl rfl
  | wait => exact phase

theorem phase_meet {loop : Loop} {incident : Incident}
    (phase : loop.phase = .draining ∨ loop.phase = .returned)
    (missed : ¬ Moment.FindsEmpty ⟨loop, incident⟩) :
    (loop.meet incident).phase = .draining ∨ (loop.meet incident).phase = .returned := by
  cases incident with
  | send signal => rwa [phase_meet_send]
  | hangUp => exact phase
  | move keys now =>
    refine (loop.ready_move now).phase_apply keys phase ?_
    rintro ⟨draining, empty⟩
    exact missed ⟨draining, by simp [Moment.move?], empty⟩

/-- A loop that has carried out a task carries out none before it has found the queue empty. -/
theorem findsEmpty_before_firing {incidents : List Incident} {loop : Loop}
    {between after : List Moment} {moment : Moment}
    (phase : loop.phase = .draining ∨ loop.phase = .returned)
    (split : history incidents loop = between ++ moment :: after) (fired : moment.fired? ≠ none) :
    ∃ earlier ∈ between, earlier.FindsEmpty := by
  induction between generalizing incidents loop with
  | nil =>
    obtain ⟨earlier, later, _, first, met, _⟩ := history_eq_append_cons split
    cases earlier with
    | cons => simp [history] at first
    | nil =>
      obtain ⟨task, due, phased⟩ := (Moment.phase_of_fired fired).1
      rw [met] at phased
      change loop.phase = _ at phased
      simp [phased] at phase
  | cons first between ih =>
    cases incidents with
    | nil => simp [history] at split
    | cons incident rest =>
      obtain ⟨rfl, rest⟩ := List.cons.inj split
      by_cases empty : Moment.FindsEmpty ⟨loop, incident⟩
      · exact ⟨_, List.mem_cons_self, empty⟩
      · obtain ⟨earlier, member, finds⟩ := ih (phase_meet phase empty) rest
        exact ⟨earlier, List.mem_cons_of_mem _ member, finds⟩

/-! ## Promptness -/

/-- A loop that is to return within `moves` moves, and to carry out at most `firings` tasks. Signals
still to be taken count as moves. -/
inductive Doomed (loop : Loop) (moves firings : Nat) : Prop
  | returned (phase : loop.phase = .returned)
  | ended (ended : loop.machine.Ended)
    (phase : loop.phase = .draining ∧ loop.channel.queue.length + 2 ≤ moves ∨
      loop.phase = .choosing ∧ 1 ≤ moves)
  | closing (closing : loop.Closing)
    (moves : loop.channel.queue.length + loop.phase.distance ≤ moves)
    (firings : loop.phase.firings ≤ firings)

theorem Closing.doomed {loop : Loop} (closing : loop.Closing) :
    loop.Doomed (loop.channel.queue.length + 4) 1 := by
  refine .closing closing ?_ ?_
  · cases loop.phase <;> simp [Phase.distance]
  · cases loop.phase <;> simp [Phase.firings]

theorem Doomed.returned_of_zero {loop : Loop} (doomed : loop.Doomed 0 firings) :
    loop.phase = .returned := by
  cases doomed with
  | returned phase => exact phase
  | ended ended phase => omega
  | closing closing moves =>
    cases phase : loop.phase <;> simp [phase, Phase.distance] at moves ⊢

theorem Closing.send {loop : Loop} (closing : loop.Closing) (signal : Signal) :
    (loop.meet (.send signal)).Closing := by
  simp only [meet]
  split
  · exact closing.imp (List.mem_append_left _) id
  · exact closing

theorem Doomed.send {loop : Loop} (doomed : loop.Doomed moves firings) (signal : Signal) :
    (loop.meet (.send signal)).Doomed (moves + (Moment.mk loop (.send signal)).sent?.toList.length)
      firings := by
  have phase := loop.phase_meet_send signal
  have length := congrArg List.length (Moment.queue_next ⟨loop, .send signal⟩)
  simp only [Moment.next, Moment.handled?, Moment.move?, Option.toList, List.length_append] at length
  cases doomed with
  | returned returned => exact .returned (phase.trans returned)
  | ended ended phased =>
    refine .ended (by rwa [machine_meet_send]) ?_
    rw [phase]
    simp only [Option.toList]
    rcases phased with ⟨draining, bound⟩ | ⟨choosing, bound⟩
    · exact .inl ⟨draining, by omega⟩
    · exact .inr ⟨choosing, by omega⟩
  | closing closing distance bound =>
    refine .closing (closing.send signal) ?_ (phase ▸ bound)
    rw [phase]
    simp only [Option.toList]
    omega

theorem Doomed.hangUp {loop : Loop} (doomed : loop.Doomed moves firings) :
    (loop.meet .hangUp).Doomed moves firings := by
  cases doomed with
  | returned phase => exact .returned phase
  | ended ended phase => exact .ended ended phase
  | closing closing distance bound => exact .closing (.inr rfl) distance bound

theorem Closing.tail {loop : Loop} (closing : loop.Closing)
    (queued : loop.channel.queue = signal :: rest) (other : signal ≠ .stop) :
    .stop ∈ rest ∨ loop.channel.connected = false := by
  refine closing.imp ?_ id
  intro stops
  rw [queued] at stops
  exact (List.mem_cons.mp stops).resolve_left other.symm

theorem doomed_apply_of_ended {loop : Loop} {move : Move} {now : Instant}
    (ended : loop.machine.Ended)
    (phase : loop.phase = .draining ∧ loop.channel.queue.length + 2 ≤ moves ∨
      loop.phase = .choosing ∧ 1 ≤ moves)
    (keys : Key → Bool) (ready : loop.Ready now move) :
    move.fired? = none ∧ (loop.apply keys now move).Doomed (moves - 1) firings := by
  cases ready with
  | receive listening queued =>
    have bound : loop.channel.queue.length + 2 ≤ moves := by
      rcases phase with ⟨_, bound⟩ | ⟨choosing, _⟩
      · exact bound
      · simp [choosing] at listening
    refine ⟨rfl, .ended (by simpa only [apply, ended.receive] using ended) (.inl ⟨rfl, ?_⟩)⟩
    simp only [queued, List.length_cons] at bound
    simp only [apply, queued, List.tail_cons]
    omega
  | hearInTime => exact ⟨rfl, .returned rfl⟩
  | hearParked parked => simp [parked] at phase
  | findEmpty draining =>
    refine ⟨rfl, .ended ended (.inr ⟨rfl, ?_⟩)⟩
    simp only [draining, true_and, reduceCtorEq, false_and, or_false] at phase
    omega
  | rest choosing next | attend choosing next => simp [ended.next?] at next
  | park choosing idle awaiting => exact absurd ended.free awaiting
  | finish => exact ⟨rfl, .returned rfl⟩
  | wake resting => simp [resting] at phase
  | perform due => simp [due] at phase
  | wait quiet =>
    rcases quiet with returned | ⟨waiting, _⟩
    · exact ⟨rfl, .returned returned⟩
    · rcases phase with ⟨draining, _⟩ | ⟨choosing, _⟩ <;> simp_all

/-- A move takes a doomed loop closer to its return. -/
theorem Doomed.apply {loop : Loop} {move : Move} {now : Instant} (doomed : loop.Doomed moves firings)
    (keys : Key → Bool) (ready : loop.Ready now move) :
    move.fired?.toList.length ≤ firings ∧
      (loop.apply keys now move).Doomed (moves - 1) (firings - move.fired?.toList.length) := by
  cases doomed with
  | returned phase =>
    cases ready with
    | wait => exact ⟨Nat.zero_le _, .returned phase⟩
    | receive listening => simp [phase] at listening
    | hearInTime listening => simp [phase] at listening
    | hearParked other | findEmpty other | rest other | attend other | park other | finish other
    | wake other | perform other => simp [phase] at other
  | ended ended phase =>
    obtain ⟨idle, doomed⟩ := doomed_apply_of_ended ended phase keys ready
    rw [idle]
    exact ⟨Nat.zero_le _, doomed⟩
  | closing closing distance bound =>
    cases ready with
    | @receive signal rest listening queued =>
      have left : rest.length + 3 ≤ moves := by
        have : 2 ≤ loop.phase.distance := by
          rcases listening with phase | phase | ⟨_, _, phase⟩ <;> simp [phase, Phase.distance]
        simp only [queued, List.length_cons] at distance
        omega
      refine ⟨Nat.zero_le _, ?_⟩
      -- Until the stop is taken the loop is doomed by its channel, and then by its machine.
      by_cases stops : signal = .stop
      · subst stops
        refine .ended (Machine.stop_ended _) (.inl ⟨rfl, ?_⟩)
        simp only [Loop.apply, queued, List.tail_cons]
        omega
      · refine .closing ?_ ?_ (Nat.zero_le _)
        · simpa only [Closing, Loop.apply, queued, List.tail_cons] using closing.tail queued stops
        · simp only [Loop.apply, queued, List.tail_cons, Phase.distance]
          omega
    | hearInTime => exact ⟨Nat.zero_le _, .returned rfl⟩
    | hearParked phase empty =>
      refine ⟨Nat.zero_le _, .ended (Machine.stop_ended _) (.inl ⟨rfl, ?_⟩)⟩
      simp only [phase, Phase.distance, empty, List.length_nil] at distance
      simp only [Loop.apply, empty, List.length_nil]
      omega
    | findEmpty phase empty connected | wake phase empty connected =>
      exact absurd closing (not_closing empty connected)
    | rest phase | attend phase | park phase =>
      rw [phase] at distance bound
      simp only [Phase.distance, Phase.firings] at distance bound
      refine ⟨Nat.zero_le _, .closing closing ?_ ?_⟩
      · simp only [Loop.apply, Phase.distance]
        omega
      · simp [Loop.apply, Phase.firings, Move.fired?, bound]
    | finish => exact ⟨Nat.zero_le _, .returned rfl⟩
    | perform phase =>
      rw [phase] at distance bound
      simp only [Phase.distance, Phase.firings] at distance bound
      refine ⟨bound, .closing closing ?_ (Nat.zero_le _)⟩
      simp only [Loop.apply, Phase.distance]
      omega
    | wait quiet =>
      rcases quiet with returned | ⟨_, empty, connected⟩
      · exact ⟨Nat.zero_le _, .returned returned⟩
      · exact absurd closing (not_closing empty connected)

theorem Doomed.meet {loop : Loop} (doomed : loop.Doomed moves firings) (incident : Incident) :
    (Moment.mk loop incident).fired?.toList.length ≤ firings ∧
      (loop.meet incident).Doomed
        (moves + (Moment.mk loop incident).sent?.toList.length -
          (Moment.mk loop incident).move?.toList.length)
        (firings - (Moment.mk loop incident).fired?.toList.length) := by
  cases incident with
  | send signal => exact ⟨Nat.zero_le _, doomed.send signal⟩
  | hangUp => exact ⟨Nat.zero_le _, doomed.hangUp⟩
  | move keys now => exact doomed.apply keys (loop.ready_move now)

theorem returned_meet {loop : Loop} (incident : Incident) (phase : loop.phase = .returned) :
    (loop.meet incident).phase = .returned := by
  cases incident with
  | send signal => exact (phase_meet_send loop signal).trans phase
  | hangUp => exact phase
  | move keys now => simp [meet, advance, move, phase, apply]

theorem follow_returned {loop : Loop} (incidents : List Incident) (phase : loop.phase = .returned) :
    (Loop.follow incidents loop).phase = .returned :=
  @follow_invariant (fun loop => loop.phase = .returned) (fun _ incident => returned_meet incident)
    incidents loop phase

theorem Doomed.follow {loop : Loop} (doomed : loop.Doomed moves firings)
    (incidents : List Incident) :
    ((history incidents loop).filterMap Moment.fired?).length ≤ firings ∧
      (moves + ((history incidents loop).filterMap Moment.sent?).length ≤
          ((history incidents loop).filterMap Moment.move?).length →
        (Loop.follow incidents loop).phase = .returned) := by
  simp only [List.filterMap_eq_flatMap_toList]
  induction incidents generalizing loop moves firings with
  | nil =>
    refine ⟨Nat.zero_le _, ?_⟩
    intro spent
    have : moves = 0 := by simpa [history] using spent
    subst this
    exact doomed.returned_of_zero
  | cons incident rest ih =>
    obtain ⟨first, next⟩ := doomed.meet incident
    obtain ⟨later, returns⟩ := ih next
    simp only [history, List.flatMap_cons, List.length_append]
    refine ⟨by omega, ?_⟩
    intro spent
    -- A move that no bound is left for is made by a loop that has returned already.
    by_cases early : (Moment.mk loop incident).move?.toList.length ≤
        moves + (Moment.mk loop incident).sent?.toList.length
    · exact returns (by omega)
    · have : moves = 0 := by
        cases moved : (Moment.mk loop incident).move? <;> simp [moved] at early
        omega
      subst this
      exact follow_returned rest (returned_meet incident doomed.returned_of_zero)

/-! ## An end that is there from the start -/

/-- What a loop whose end was in its channel from the start comes to. Until the signals are taken
the result is what they will make of the machine, and then it is the machine. -/
inductive Settles (loop : Loop) (result : Machine) : Prop
  | pending (phase : loop.phase = .draining) (closing : loop.Closing)
    (verdict : ∀ times, loop.verdict times = result)
  | settled (phase : loop.phase = .draining ∨ loop.phase = .choosing ∨ loop.phase = .returned)
    (ended : loop.machine.Ended) (same : loop.machine = result)

theorem Closing.verdict_ended {loop : Loop} (closing : loop.Closing) (times : Nat → Instant) :
    (loop.verdict times).Ended := by
  unfold verdict
  cases connected : loop.channel.connected with
  | false => exact Machine.stop_ended _
  | true => exact Machine.ended_pace_told (closing.resolve_right (by simp [connected])) _ _

theorem Closing.verdict_send {loop : Loop} (closing : loop.Closing) (signal : Signal)
    (times : Nat → Instant) : (loop.meet (.send signal)).verdict times = loop.verdict times := by
  cases connected : loop.channel.connected with
  | false => simp [meet, connected]
  | true =>
    have ended := closing.verdict_ended times
    simp only [verdict, connected, ↓reduceIte] at ended
    simp only [verdict, meet, connected, ↓reduceIte, Channel.send, Machine.told, List.mapIdx_append,
      Machine.pace_append]
    exact ended.pace_told _ [signal]

theorem Closing.verdict_hangUp {loop : Loop} (closing : loop.Closing) (times : Nat → Instant) :
    (loop.meet .hangUp).verdict times = loop.verdict times := by
  have ended := closing.verdict_ended times
  cases connected : loop.channel.connected with
  | false => simp [verdict, meet, Channel.hangUp, connected]
  | true =>
    simp only [verdict, connected, ↓reduceIte] at ended
    simp only [verdict, meet, Channel.hangUp, connected, ↓reduceIte, Bool.false_eq_true]
    exact ended.stop

theorem verdict_receive {loop : Loop} (keys : Key → Bool) (now : Instant) (times : Nat → Instant)
    (queued : loop.channel.queue = signal :: rest) :
    (loop.apply keys now (.receive signal)).verdict times =
      loop.verdict fun | 0 => now | k + 1 => times k := by
  simp only [verdict, apply, queued, List.tail_cons, Machine.told_cons, Machine.pace, Machine.handle]

theorem verdict_of_ended {loop : Loop} (ended : loop.machine.Ended) (times : Nat → Instant) :
    loop.verdict times = loop.machine := by
  simp only [verdict, ended.pace_told, ended.stop, ite_self]

theorem Settles.apply {loop : Loop} {result : Machine} {move : Move} {now : Instant}
    (settles : loop.Settles result) (keys : Key → Bool) (ready : loop.Ready now move) :
    (loop.apply keys now move).Settles result := by
  cases settles with
  | pending phase closing verdict =>
    cases ready with
    | @receive signal rest listening queued =>
      have next (times : Nat → Instant) :
          (loop.apply keys now (.receive signal)).verdict times = result :=
        (verdict_receive keys now times queued).trans (verdict _)
      -- A stop settles the result; after any other signal the end is still in the channel.
      by_cases stops : signal = .stop
      · subst stops
        have ended := Machine.stop_ended loop.machine
        refine .settled (.inl rfl) ended ?_
        rw [← next fun _ => now]
        exact (verdict_of_ended ended _).symm
      · refine .pending rfl ?_ next
        simpa only [Closing, Loop.apply, queued, List.tail_cons] using closing.tail queued stops
    | hearInTime listening empty hungUp =>
      refine .settled (.inr (.inr rfl)) (Machine.stop_ended _) ?_
      rw [← verdict fun _ => now]
      simp [Loop.verdict, empty, hungUp, Machine.told, Machine.pace, Loop.apply]
    | findEmpty phase empty connected => exact absurd closing (not_closing empty connected)
    | hearParked other | rest other | attend other | park other | finish other | wake other
    | perform other => simp [phase] at other
    | wait quiet => exact .pending phase closing verdict
  | settled phase ended same =>
    cases ready with
    | receive =>
      refine .settled (.inl rfl) ?_ ?_
      · simpa only [Loop.apply, ended.receive] using ended
      · simpa only [Loop.apply, ended.receive] using same
    | hearInTime =>
      refine .settled (.inr (.inr rfl)) ?_ ?_
      · simpa only [Loop.apply, ended.stop] using ended
      · simpa only [Loop.apply, ended.stop] using same
    | hearParked other | wake other | perform other => simp [other] at phase
    | findEmpty => exact .settled (.inr (.inl rfl)) ended same
    | rest _ next | attend _ next => simp [ended.next?] at next
    | park _ _ awaiting => exact absurd ended.free awaiting
    | finish => exact .settled (.inr (.inr rfl)) ended same
    | wait => exact .settled phase ended same

theorem Settles.meet {loop : Loop} {result : Machine} (settles : loop.Settles result)
    (incident : Incident) : (loop.meet incident).Settles result := by
  cases incident with
  | move keys now => exact settles.apply keys (loop.ready_move now)
  | hangUp =>
    cases settles with
    | pending phase closing verdict =>
      exact .pending phase (.inr rfl) fun times => (closing.verdict_hangUp times).trans (verdict times)
    | settled phase ended same => exact .settled phase ended same
  | send signal =>
    cases settles with
    | pending draining closing verdict =>
      exact .pending ((phase_meet_send ..).trans draining) (closing.send signal)
        fun times => (closing.verdict_send signal times).trans (verdict times)
    | settled phased ended same =>
      exact .settled (by rwa [phase_meet_send]) (by rwa [machine_meet_send])
        ((machine_meet_send ..).trans same)

/-- A run of the loop from its start, on any machine. Signals are handled in the order sent, each
once, and those not handled stay in the queue. Between two tasks the queue was found empty. Once a
stop is queued or the sender has hung up, at most one more task is carried out, and the loop returns
after one move for every signal there is and four more. If this was so from the start, no task is
carried out, and the machine has ended as the queued signals, and after them a hang-up, make it end,
whatever the times. -/
theorem run_delivers (m : Machine) (channel : Channel) (incidents : List Incident) :
    let start : Loop := { machine := m, channel }
    let past := history incidents start
    let loop := follow incidents start
    channel.queue ++ past.filterMap Moment.sent? =
      past.filterMap Moment.handled? ++ loop.channel.queue ∧
    (∀ before first between second after,
      past = before ++ first :: (between ++ second :: after) →
      first.fired? ≠ none → second.fired? ≠ none → ∃ moment ∈ between, moment.FindsEmpty) ∧
    (.stop ∈ loop.channel.queue ∨ loop.channel.connected = false → ∀ later,
      let coming := history later loop
      (coming.filterMap Moment.fired?).length ≤ 1 ∧
      (loop.channel.queue.length + (coming.filterMap Moment.sent?).length + 4 ≤
        (coming.filterMap Moment.move?).length → (follow later loop).phase = .returned)) ∧
    (.stop ∈ channel.queue ∨ channel.connected = false →
      past.filterMap Moment.fired? = [] ∧
      (loop.phase = .returned → loop.machine.Ended ∧ ∀ times : Nat → Instant,
        let told := Machine.pace
          (channel.queue.mapIdx fun k signal => .signal (times k) signal) m
        loop.machine = if channel.connected then told else told.stop)) := by
  intro start past loop
  refine ⟨queue_history incidents start, ?_, ?_, ?_⟩
  · intro before first between second after split firstFired secondFired
    obtain ⟨earlier, later, _, _, _, rest⟩ := history_eq_append_cons split
    exact findsEmpty_before_firing (.inl (Moment.phase_of_fired firstFired).2) rest secondFired
  · intro closing later coming
    obtain ⟨firings, returns⟩ := Doomed.follow (Closing.doomed closing) later
    refine ⟨firings, ?_⟩
    intro enough
    exact returns (by rw [Nat.add_right_comm]; exact enough)
  · intro closing
    change start.Closing at closing
    have doomed : start.Doomed (channel.queue.length + 2) 0 :=
      .closing closing (Nat.le_refl _) (Nat.le_refl _)
    refine ⟨List.eq_nil_of_length_eq_zero (Nat.le_zero.mp (doomed.follow incidents).1), ?_⟩
    intro returned
    have settles : loop.Settles (start.verdict fun _ => 0) :=
      @follow_invariant (fun loop => loop.Settles (start.verdict fun _ => 0))
        (fun _ incident settles => settles.meet incident) incidents start
        (.pending rfl closing fun times => verdict_eq closing _ times)
    cases settles with
    | pending draining => simp [returned] at draining
    | settled _ ended same =>
      refine ⟨ended, ?_⟩
      intro times
      exact same.trans (verdict_eq closing times _)

end Loop
end ChipEight

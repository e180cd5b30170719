import ChipEight.Proofs.Delivery
import ChipEight.Proofs.Playing

/-! How a loop ends. A machine that has halted or was stopped is left alone for good, and a loop
returns only with such a machine. Which of the two it is depends on what came first: a fault in a
cycle, or a stop or the news of the hang-up. A starter who closes a session waits for that and gets
to know it. -/
namespace ChipEight

/-- Nothing is to happen any more. -/
def Status.Final (status : Status) : Prop := (∃ fault, status = .halted fault) ∨ status = .stopped

/-- Nothing happens that ends a machine. -/
structure Moment.Passes (moment : Moment) : Prop where
  sound : moment.fault? = none
  unstopped : moment.handled? ≠ some .stop
  unheard : moment.hearsHangUp = false

instance (moment : Moment) : Decidable moment.Passes :=
  decidable_of_iff (moment.fault? = none ∧ moment.handled? ≠ some .stop ∧ moment.hearsHangUp = false)
    ⟨fun ⟨sound, unstopped, unheard⟩ => ⟨sound, unstopped, unheard⟩,
      fun passes => ⟨passes.sound, passes.unstopped, passes.unheard⟩⟩

theorem Moment.not_passes_of_fault {moment : Moment} {fault : Fault}
    (faulted : moment.fault? = some fault) : ¬ moment.Passes := by
  intro passes
  have := passes.sound
  simp [faulted] at this

theorem Moment.not_passes_of_hangUp {moment : Moment} (heard : moment.hearsHangUp = true) :
    ¬ moment.Passes := by
  intro passes
  have := passes.unheard
  simp [heard] at this

/-- A cycle has ended in this fault. Before that none ended in a fault, no stop was handled and no
hang-up heard. -/
def FaultedFirst (fault : Fault) (moments : List Moment) : Prop :=
  ∃ before moment after, moments = before ++ moment :: after ∧ moment.fault? = some fault ∧
    ∀ earlier ∈ before, earlier.Passes

namespace FaultedFirst

theorem nil (fault : Fault) : ¬ FaultedFirst fault [] := by
  rintro ⟨before, moment, after, split, -⟩
  simp at split

theorem cons {fault : Fault} {first : Moment} {rest : List Moment} :
    FaultedFirst fault (first :: rest) ↔
      first.fault? = some fault ∨ first.Passes ∧ FaultedFirst fault rest := by
  constructor
  · rintro ⟨before, moment, after, split, faulted, passed⟩
    cases before with
    | nil =>
      obtain ⟨rfl, -⟩ := List.cons.inj split
      exact .inl faulted
    | cons earlier before =>
      obtain ⟨rfl, later⟩ := List.cons.inj split
      exact .inr ⟨passed _ List.mem_cons_self, before, moment, after, later, faulted,
        fun earlier member => passed earlier (List.mem_cons_of_mem _ member)⟩
  · rintro (faulted | ⟨passes, before, moment, after, rfl, faulted, passed⟩)
    · exact ⟨[], first, rest, rfl, faulted, by simp⟩
    · refine ⟨first :: before, moment, after, rfl, faulted, ?_⟩
      intro earlier member
      rcases List.mem_cons.mp member with rfl | member
      · exact passes
      · exact passed earlier member

end FaultedFirst

namespace Machine

theorem Phased.ended_of_final {m : Machine} (phased : m.Phased) (final : m.status.Final) :
    m.Ended := by
  rcases phased with running | ⟨x, waiting⟩ | ended
  · simp [Status.Final, running.status] at final
  · simp [Status.Final, waiting.status] at final
  · exact ended

theorem Phased.ended_of_idle {m : Machine} (phased : m.Phased) (idle : m.agenda.next? = none)
    (free : m.cpu.awaiting = none) : m.Ended := by
  rcases phased with running | ⟨x, waiting⟩ | ended
  · have armed := running.armed
    simp [Agenda.isScheduled, Agenda.next?_eq_none_iff.mp idle] at armed
  · have awaited := waiting.awaiting
    simp [free] at awaited
  · exact ended

theorem start_phased {m : Machine} (free : m.cpu.awaiting = none) (now : Instant) :
    (m.start now).Phased :=
  .inl ⟨rfl, by simp [start, Agenda.isScheduled], free⟩

theorem stop_status {m : Machine} (alive : ¬ m.status.Final) : m.stop.status = .stopped := by
  unfold stop
  split
  next fault halted => exact absurd (.inl ⟨fault, halted⟩) alive
  next => rfl

theorem receive_keyDown_alive {m : Machine} (alive : ¬ m.status.Final) (now : Instant) (key : Key) :
    ¬ (m.receive now (.keyDown key)).status.Final := by
  unfold receive giveKey
  cases m.cpu.awaiting with
  | some x => simp [Status.Final]
  | none => exact alive

theorem goOn_alive {m : Machine} (alive : ¬ m.status.Final) (due : Instant) :
    ¬ (m.goOn due).status.Final := by
  unfold goOn
  cases m.cpu.awaiting with
  | some x => simp [Status.Final]
  | none => exact alive

end Machine

namespace Loop

/-- What every loop keeps to whose machine was set going. A task that the loop is to carry out is
still the next one, and a loop returns only with a machine that has ended. -/
structure Sound (loop : Loop) : Prop where
  phased : loop.machine.Phased
  next {task : Task} {due : Instant} : loop.phase = .resting task due ∨ loop.phase = .due task due →
    loop.machine.agenda.next? = some (task, due)
  returned : loop.phase = .returned → loop.machine.Ended

theorem Sound.of_draining {loop : Loop} (phased : loop.machine.Phased)
    (draining : loop.phase = .draining) : loop.Sound where
  phased := phased
  next := by simp [draining]
  returned := by simp [draining]

theorem Sound.armed {loop : Loop} (sound : loop.Sound) {task : Task} {due : Instant}
    (phase : loop.phase = .due task due) : loop.machine.agenda.isScheduled task := by
  simp [Agenda.isScheduled, Agenda.deadline_of_next? (sound.next (.inr phase))]

theorem Sound.apply {loop : Loop} {move : Move} {now : Instant} (sound : loop.Sound)
    (keys : Key → Bool) (ready : loop.Ready now move) : (loop.apply keys now move).Sound := by
  have prompt : (loop.apply keys now move).Prompt := Prompt.apply (fun _ _ => sound.next) keys ready
  cases ready with
  | receive => exact .of_draining (Machine.receive_phased now _ sound.phased) rfl
  | hearInTime => exact ⟨.inr (.inr (Machine.stop_ended _)), prompt _ _, fun _ => Machine.stop_ended _⟩
  | hearParked => exact .of_draining (.inr (.inr (Machine.stop_ended _))) rfl
  | findEmpty | rest | attend | park | wake =>
    exact ⟨sound.phased, prompt _ _, by simp [Loop.apply]⟩
  | finish _ idle free =>
    exact ⟨sound.phased, prompt _ _, fun _ => sound.phased.ended_of_idle idle free⟩
  | perform phase =>
    exact .of_draining (Machine.perform_phased keys now _ sound.phased (sound.armed phase)) rfl
  | wait => exact sound

theorem Sound.meet {loop : Loop} (sound : loop.Sound) (incident : Incident) :
    (loop.meet incident).Sound := by
  cases incident with
  | send signal =>
    refine ⟨?_, ?_, ?_⟩
    · rw [machine_meet_send]
      exact sound.phased
    · rw [phase_meet_send, machine_meet_send]
      exact sound.next
    · rw [phase_meet_send, machine_meet_send]
      exact sound.returned
  | hangUp => exact ⟨sound.phased, sound.next, sound.returned⟩
  | move keys now => exact sound.apply keys (loop.ready_move now)

theorem Sound.follow {loop : Loop} (sound : loop.Sound) (incidents : List Incident) :
    (Loop.follow incidents loop).Sound :=
  follow_invariant (fun _ incident sound => sound.meet incident) incidents loop sound

/-! ## Nothing after the end -/

theorem Sound.meet_ended {loop : Loop} (sound : loop.Sound) (ended : loop.machine.Ended)
    (incident : Incident) :
    (loop.meet incident).machine = loop.machine ∧ (Moment.mk loop incident).fired? = none := by
  cases (Moment.mk loop incident).bears with
  | nothing _ _ idle same => exact ⟨same, idle⟩
  | signal _ _ _ idle received => exact ⟨received.trans (ended.receive _ _), idle⟩
  | hangUp _ _ idle stopped => exact ⟨stopped.trans ended.stop, idle⟩
  | task _ phase =>
    have next := sound.next (.inr phase)
    simp [ended.next?] at next

theorem Sound.follow_ended {loop : Loop} (sound : loop.Sound) (ended : loop.machine.Ended)
    (incidents : List Incident) :
    (Loop.follow incidents loop).machine = loop.machine ∧
      (history incidents loop).filterMap Moment.fired? = [] := by
  induction incidents generalizing loop with
  | nil => exact ⟨rfl, rfl⟩
  | cons incident rest ih =>
    obtain ⟨same, idle⟩ := sound.meet_ended ended incident
    obtain ⟨stays, none⟩ := ih (sound.meet incident) (same ▸ ended)
    refine ⟨stays.trans same, ?_⟩
    rw [history, List.filterMap_cons_none idle]
    exact none

end Loop

/-! ## Which end it is -/

namespace Moment

/-- What a moment can do to a machine that has not ended. -/
inductive Outcome (moment : Moment) (next : Machine) : Prop
  | goesOn (passes : moment.Passes) (alive : ¬ next.status.Final)
  | stops (sound : moment.fault? = none) (blocked : ¬ moment.Passes)
    (status : next.status = .stopped)
  | halts {fault : Fault} (faulted : moment.fault? = some fault)
    (status : next.status = .halted fault)

theorem outcome {moment : Moment} (sound : moment.loop.Sound)
    (alive : ¬ moment.loop.machine.status.Final) : moment.Outcome moment.next.machine := by
  cases moment.bears with
  | nothing unhandled unheard idle same =>
    rw [same]
    exact .goesOn ⟨fault?_eq_none (by simp [idle]), by simp [unhandled], unheard⟩ alive
  | @signal signal keys now incident handled unheard idle received =>
    have faultless : moment.fault? = none := fault?_eq_none (by simp [idle])
    rw [received]
    cases signal with
    | keyDown key =>
      exact .goesOn ⟨faultless, by simp [handled], unheard⟩
        (Machine.receive_keyDown_alive alive now key)
    | stop =>
      refine .stops faultless ?_ (Machine.stop_status alive)
      intro passes
      exact passes.unstopped handled
  | hangUp unhandled heard idle stopped =>
    rw [stopped]
    exact .stops (fault?_eq_none (by simp [idle])) (not_passes_of_hangUp heard)
      (Machine.stop_status alive)
  | @task task due keys now incident phase unhandled unheard fired performed =>
    rw [performed]
    cases task with
    | cycle =>
      have running := sound.phased.running_of_armed (sound.armed phase)
      simp only [Machine.perform, Machine.cycle_eq, running.free]
      cases current : moment.loop.machine.cpu.current with
      | error fault =>
        exact .halts
          (fault?_eq_some_iff.mpr ⟨keys, now, due, incident, fired, running.free, current⟩) rfl
      | ok instruction =>
        refine .goesOn ⟨?_, by simp [unhandled], unheard⟩ (Machine.goOn_alive ?_ due)
        · refine Option.eq_none_iff_forall_not_mem.mpr ?_
          intro fault faulted
          obtain ⟨_, _, _, _, _, _, refused⟩ := fault?_eq_some_iff.mp faulted
          simp [current] at refused
        · rw [show (Machine.moveOn _).status = _ from Machine.after_status ..]
          exact alive
    | delay | sound =>
      exact .goesOn ⟨fault?_eq_none (by simp [fired]), by simp [unhandled], unheard⟩ alive

end Moment

namespace Loop

theorem Sound.status_halted_iff {loop : Loop} (sound : loop.Sound)
    (alive : ¬ loop.machine.status.Final) (incidents : List Incident) (fault : Fault) :
    (Loop.follow incidents loop).machine.status = .halted fault ↔
      FaultedFirst fault (history incidents loop) := by
  induction incidents generalizing loop with
  | nil =>
    refine iff_of_false ?_ (FaultedFirst.nil fault)
    intro halted
    exact alive (.inl ⟨fault, halted⟩)
  | cons incident rest ih =>
    have kept := sound.meet incident
    have stays (final : (loop.meet incident).machine.status.Final) :
        (Loop.follow (incident :: rest) loop).machine = (loop.meet incident).machine :=
      (kept.follow_ended (kept.phased.ended_of_final final) rest).1
    rw [history, FaultedFirst.cons]
    -- The moment that ends the machine decides; what comes after it leaves the status alone.
    have outcome : Moment.Outcome ⟨loop, incident⟩ (loop.meet incident).machine :=
      Moment.outcome sound alive
    cases outcome with
    | goesOn passes alive =>
      simp only [passes.sound, passes, reduceCtorEq, false_or, true_and]
      exact ih kept alive
    | stops sound blocked status =>
      rw [stays (.inr status), status]
      simp [sound, blocked]
    | @halts other faulted status =>
      rw [stays (.inl ⟨other, status⟩), status, faulted]
      simp [Moment.not_passes_of_fault faulted]

end Loop

/-! ## Closing a session -/

namespace Session

/-- Where a session comes to that is played until its loop has returned. With a keypad it does not
break off. -/
structure PlaysOut (s final : Session) : Prop where
  unbroken : s.keypad.isSome → final.crashed = false
  returned : final.crashed = false → final.loop.phase = .returned

theorem PlaysOut.refl {s : Session} (alive : s.crashed = false)
    (returned : s.loop.phase = .returned) : s.PlaysOut s where
  unbroken _ := alive
  returned _ := returned

theorem PlaysOut.act {s final : Session} {move : Move} (later : (s.act move).PlaysOut final) :
    s.PlaysOut final where
  unbroken present := later.unbroken (by rwa [keypad_act])
  returned := later.returned

theorem play_of_done {done : Session → Bool} {s : Session} (reached : done s) (horizon : Option Nat)
    (fuel : Nat) (mark : Bookmark) : s.play done horizon fuel mark = s := by
  cases fuel with
  | zero => rfl
  | succ fuel => rw [play, if_pos reached]

theorem nextRound?_of_doomed {s : Session} (doomed : s.loop.Doomed moves firings) :
    s.nextRound? = none := by
  unfold nextRound?
  split
  next phase channel =>
    cases doomed with
    | returned returned => simp [phase] at returned
    | ended ended => exact ended.next?
    | closing closing => exact absurd closing (Loop.not_closing (by rw [channel]) (by rw [channel]))
  next => rfl

theorem move_ne_wait {loop : Loop} (doomed : loop.Doomed moves firings)
    (going : loop.phase ≠ .returned) (now : Instant) : loop.move now ≠ .wait := by
  have ready := loop.ready_move now
  intro waits
  rw [waits] at ready
  cases ready with
  | wait quiet =>
    obtain ⟨phase, empty, connected⟩ := quiet.resolve_left going
    cases doomed with
    | returned returned => exact going returned
    | ended ended active => rcases phase with phase | ⟨_, _, phase⟩ <;> simp [phase] at active
    | closing closing => exact Loop.not_closing empty connected closing

/-- A session whose loop is to return goes on move by move, unless it breaks off. -/
theorem turn_of_doomed {s : Session} (alive : s.crashed = false)
    (going : s.loop.phase ≠ .returned) (doomed : s.loop.Doomed moves firings) :
    s.keypad.isNone ∧ s.turn = .crash ∨ s.turn = .act (s.loop.move s.clock) := by
  have moves := move_ne_wait doomed going s.clock
  simp only [turn, alive, nextRound?_of_doomed doomed, Bool.false_eq_true, ↓reduceIte]
  split
  next waits => exact absurd waits moves
  next task due performs =>
    rw [performs]
    split
    next breaks =>
      simp only [breaksAt, Bool.and_eq_true] at breaks
      exact .inl ⟨breaks.1.2, rfl⟩
    next => exact .inr rfl
  next => exact .inr rfl

theorem play_doomed {s : Session} (alive : s.crashed = false) (doomed : s.loop.Doomed moves firings)
    {fuel : Nat} (enough : moves ≤ fuel) (mark : Bookmark) :
    s.PlaysOut (s.play isOver none fuel mark) := by
  induction fuel generalizing s moves firings with
  | zero =>
    obtain rfl : moves = 0 := Nat.le_zero.mp enough
    exact .refl alive doomed.returned_of_zero
  | succ fuel ih =>
    by_cases going : s.loop.phase = .returned
    · rw [play_of_done (by simp [isOver, going])]
      exact .refl alive going
    -- Every turn is a move of the doomed loop, so the moves it has left bound the turns.
    · rw [play, if_neg (by simp [isOver, alive, going])]
      rcases turn_of_doomed alive going doomed with ⟨missing, crashes⟩ | acts
      · have broken : ({ s with crashed := true } : Session).isOver := rfl
        simp only [crashes, take, play_of_done broken]
        exact ⟨by simp [Option.isNone_iff_eq_none.mp missing], by simp⟩
      · have next := (doomed.meet (.move (s.keypad.getD {}).isPressed s.clock)).2
        rw [← loop_act_move] at next
        simp only [acts, take]
        exact .act (ih ((crashed_act ..).trans alive) next (Nat.sub_le_of_le_add enough))

theorem close_eq {s : Session} (unclosed : s.closed = false) :
    s.close.loop = ((s.send [.stop]).playUntil isOver).loop ∧
      s.close.crashed = ((s.send [.stop]).playUntil isOver).crashed := by
  rw [close, if_neg (by simp [unclosed])]
  generalize (s.send [.stop]).playUntil isOver = final
  dsimp only
  split <;> simp

/-- A session that is closed is sent a stop and played out. -/
theorem playUntil_playsOut {s : Session} (alive : s.crashed = false) :
    (s.send [.stop]).PlaysOut ((s.send [.stop]).playUntil isOver) := by
  have sent : (s.send [.stop]).crashed = false := alive
  have doomed : (s.send [.stop]).loop.Doomed ((s.send [.stop]).loop.channel.queue.length + 4) 1 :=
    Loop.Closing.doomed (.inl (by simp [send, Channel.send]))
  refine play_doomed sent doomed ?_ {}
  rw [Nat.add_comm longWhile]
  exact Nat.add_le_add_left (by decide) _

end Session

/-- The life of a loop whose machine was set going with no key awaited. Once the machine has halted
or was stopped, no signal and no move changes it, and no task is carried out. When the loop has
returned, that is so. It has halted with a fault just when a cycle ended in that fault before
anything else could end it. A starter who closes the session and finds it unbroken, as with a keypad
it always is, finds the loop returned after a stop and moves of its own, and so with a machine
that has halted or was stopped by that rule. -/
theorem Loop.run_final (m : Machine) (free : m.cpu.awaiting = none) (now : Instant)
    (channel : Channel) (incidents : List Incident) :
    let start : Loop := { machine := m.start now, channel }
    let past := history incidents start
    let loop := follow incidents start
    (loop.machine.status.Final →
      (∀ time signal, loop.machine.receive time signal = loop.machine) ∧
      ∀ later, (follow later loop).machine = loop.machine ∧
        (history later loop).filterMap Moment.fired? = []) ∧
    (loop.phase = .returned → loop.machine.status.Final) ∧
    (∀ fault, loop.machine.status = .halted fault ↔ FaultedFirst fault past) ∧
    ∀ s : Session, s.loop = loop → s.crashed = false → s.closed = false →
      loop.channel.connected = true →
      (s.keypad.isSome → s.close.crashed = false) ∧
      (s.close.crashed = false → ∃ times : List Instant,
        let later := .send .stop :: times.map (.move (s.keypad.getD {}).isPressed)
        s.close.loop = follow later loop ∧ s.close.loop.phase = .returned ∧
        s.close.machine.status.Final ∧
        ∀ fault, s.close.machine.status = .halted fault ↔
          FaultedFirst fault (past ++ history later loop)) := by
  intro start past loop
  have initial : start.Sound := .of_draining (Machine.start_phased free now) rfl
  have alive : ¬ start.machine.status.Final := by
    simp [start, Machine.start, Status.Final]
  have sound : loop.Sound := initial.follow incidents
  refine ⟨?_, fun returned => (sound.returned returned).status,
    initial.status_halted_iff alive incidents, ?_⟩
  · intro final
    have ended := sound.phased.ended_of_final final
    exact ⟨ended.receive, sound.follow_ended ended⟩
  · intro s same unbroken unclosed connected
    have ends := Session.playUntil_playsOut unbroken
    obtain ⟨closed, crashed⟩ := Session.close_eq unclosed
    have sent : (s.send [.stop]).loop = loop.meet (.send .stop) := by
      simp [Session.send, same, Loop.meet, connected]
    refine ⟨fun present => crashed.trans (ends.unbroken present), ?_⟩
    intro whole
    obtain ⟨times, played⟩ := (s.send [.stop]).follows_playUntil Session.isOver
    have back : s.close.loop.phase = .returned := by
      rw [closed]
      exact ends.returned (crashed.symm.trans whole)
    refine ⟨times, ?_⟩
    intro later
    have reached : s.close.loop = follow later loop := by
      rw [closed, played.loop, sent]
      rfl
    have joined : s.close.loop = follow (incidents ++ later) start := by
      rw [reached, follow_append]
    refine ⟨reached, back, ?_, ?_⟩
    · have returned := (initial.follow (incidents ++ later)).returned
      rw [← joined] at returned
      exact (returned back).status
    · intro fault
      have which := initial.status_halted_iff alive (incidents ++ later) fault
      rwa [← joined, history_append] at which

/-- Its memory holds no instruction. -/
def Machine.barren : Machine :=
  { new {} (Vector.replicate 8 0) with cpu := { memory := ⟨Vector.replicate 4096 0xFF⟩ } }

theorem Machine.current_barren : barren.cpu.current = .error (.unimplemented 0xFFFF) := by
  simp [Cpu.current, Cpu.fetch, Memory.word, barren, programStart, memorySize, bind, Except.bind]
  rfl

theorem Loop.run_final_barren :
    let turn := Incident.move (fun _ => false) 0
    let loop := follow [turn, turn, turn, .send .stop, turn] { machine := Machine.barren.start 0 }
    Machine.barren.cpu.awaiting = none ∧
    loop.machine.status = .halted (.unimplemented 0xFFFF) ∧
    loop.machine.receive 9 (.keyDown 3) = loop.machine ∧
    ∀ later, (follow later loop).machine = loop.machine := by
  intro turn loop
  obtain ⟨final, -, halted, -⟩ := run_final Machine.barren rfl 0 {} [turn, turn, turn, .send .stop, turn]
  have status : loop.machine.status = .halted (.unimplemented 0xFFFF) := by
    refine (halted _).mpr ⟨[_, _], _, [_, _], rfl, ?_, ?_⟩
    · exact Moment.fault?_eq_some_iff.mpr ⟨_, _, _, rfl, rfl, rfl, Machine.current_barren⟩
    · simp only [List.mem_cons, List.not_mem_nil, or_false, forall_eq_or_imp, forall_eq]
      exact ⟨⟨rfl, by decide, rfl⟩, ⟨rfl, by decide, rfl⟩⟩
  obtain ⟨unmoved, still⟩ := final (.inl ⟨_, status⟩)
  exact ⟨rfl, status, unmoved 9 (.keyDown 3), fun later => (still later).1⟩

end ChipEight

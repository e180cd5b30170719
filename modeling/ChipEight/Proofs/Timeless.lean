import ChipEight.Proofs.Deadlines
import ChipEight.Proofs.Program

/-! Time has no part in what a program computes. In a run of the loop, what the program has come to is
what it comes to by the replies it was given: periods, clock readings, ticks and keys that nothing
waits for have a part in it only through these. So two runs that were given the same replies of each
kind, in order, have come to the same after the same number of them, and end in the same fault. -/
namespace ChipEight

namespace Moment

def keys (moment : Moment) : Key → Bool :=
  match moment.incident with
  | .move keys _ => keys
  | .send _ | .hangUp => fun _ => false

/-- The reply to an instruction that is carried out, or the key that ends a wait. -/
def reply? (moment : Moment) : Option Reply :=
  match moment.executes?, moment.handled?, moment.loop.machine.cpu.awaiting with
  | some instruction, _, _ => some (moment.loop.machine.reply moment.keys instruction)
  | none, some (.keyDown key), some _ => some (.key key)
  | none, _, _ => none

end Moment

/-- The replies that a program is given, one for each instruction that is carried out and for each
wait that a key ends. -/
def replies (past : List Moment) : List Reply := past.filterMap Moment.reply?

theorem View.release_of_free {view : View} (free : view.cpu.awaiting = none) :
    view.release = view := by
  obtain ⟨cpu, _, _, _⟩ := view
  obtain ⟨_, _, _, _, awaiting, _⟩ := cpu
  obtain rfl : awaiting = none := free
  rfl

theorem Loop.Sound.running_of_fired {moment : Moment} (sound : moment.loop.Sound) {due : Instant}
    (fired : moment.fired? = some (.cycle, due)) : moment.loop.machine.Running := by
  have next := Moment.next?_of_fired (fun _ _ => sound.next) fired
  exact sound.phased.running_of_armed (by simp [Agenda.isScheduled, Agenda.deadline_of_next? next])

namespace Machine

theorem Phased.waiting_of_awaiting {m : Machine} {x : Register} (phased : m.Phased)
    (awaited : m.cpu.awaiting = some x) : m.Waiting x := by
  rcases phased with running | ⟨y, waiting⟩ | ended
  · simp [running.free] at awaited
  · obtain rfl := Option.some.inj (waiting.awaiting.symm.trans awaited)
    exact waiting
  · simp [ended.free] at awaited

theorem view_quiesce (m : Machine) : m.quiesce.view = m.view.release := rfl

theorem view_goOn (m : Machine) (due : Instant) : (m.goOn due).view = m.view := by
  unfold goOn
  split <;> rfl

/-- The machine shows a program that has come to `view`. If it was stopped, no key is awaited any
more. -/
structure Shows (m : Machine) (view : View) : Prop where
  alive : m.status ≠ .stopped → m.view = view
  stopped : m.status = .stopped → m.view = view.release
  halted {fault : Fault} : m.status = .halted fault →
    view.cpu.awaiting = none ∧ view.cpu.current = .error fault

theorem Shows.of_running {m : Machine} (running : ¬ m.status.Final) : m.Shows m.view where
  alive _ := rfl
  stopped stops := absurd (.inr stops) running
  halted halts := absurd (.inl ⟨_, halts⟩) running

theorem Shows.of_same {m next : Machine} {view : View} (shows : m.Shows view)
    (status : next.status = m.status) (same : next.view = m.view) : next.Shows view where
  alive := by rw [status, same]; exact shows.alive
  stopped := by rw [status, same]; exact shows.stopped
  halted := by rw [status]; exact shows.halted

theorem Shows.stop {m : Machine} {view : View} (shows : m.Shows view) : m.stop.Shows view := by
  unfold Machine.stop
  split
  next fault halted =>
    obtain ⟨free, refused⟩ := shows.halted halted
    refine ⟨?_, ?_, fun same => shows.halted same⟩
    · intro _
      rw [view_quiesce, shows.alive (by simp [halted]), View.release_of_free free]
    · intro stopped
      simp [quiesce, halted] at stopped
  next =>
    refine ⟨by simp, ?_, by simp⟩
    intro _
    refine m.view_quiesce.trans ?_
    by_cases stopped : m.status = .stopped
    · rw [shows.stopped stopped]
      rfl
    · rw [shows.alive stopped]

end Machine

namespace Moment

theorem reply?_eq_none {moment : Moment} (idle : moment.executes? = none)
    (unanswered : ∀ key, moment.handled? = some (.keyDown key) →
      moment.loop.machine.cpu.awaiting = none) : moment.reply? = none := by
  unfold reply?
  rw [idle]
  split
  · contradiction
  next handled awaited => simp [unanswered _ handled] at awaited
  next => rfl

theorem alive_of_keyDown {moment : Moment} {key : Key} {x : Register}
    (waiting : moment.loop.machine.Waiting x) (handled : moment.handled? = some (.keyDown key)) :
    ¬ moment.next.machine.status.Final := by
  obtain ⟨keys, now, incident⟩ := incident_of_handled handled
  rw [next_of_handled incident handled]
  exact Machine.receive_keyDown_alive (by simp [Status.Final, waiting.status]) now key

theorem alive_of_executes {moment : Moment} {instruction : Instruction}
    (running : moment.loop.machine.Running) (executes : moment.executes? = some instruction) :
    ¬ moment.next.machine.status.Final := by
  obtain ⟨keys, now, due, -, -, -, -, next⟩ := next_of_executes executes
  rw [next]
  refine Machine.goOn_alive ?_ due
  rw [show (Machine.moveOn _).status = _ from Machine.after_status ..]
  simp [Status.Final, running.status]

/-- Right after a reply the machine has not ended. -/
theorem alive_of_reply {moment : Moment} (sound : moment.loop.Sound)
    (answered : moment.reply? ≠ none) : ¬ moment.next.machine.status.Final := by
  intro final
  refine answered (reply?_eq_none ?_ ?_)
  · refine Option.eq_none_iff_forall_not_mem.mpr ?_
    intro instruction executes
    obtain ⟨_, _, _, _, fired, _⟩ := next_of_executes executes
    exact alive_of_executes (sound.running_of_fired fired) executes final
  · intro key handled
    refine Option.eq_none_iff_forall_not_mem.mpr ?_
    intro x awaited
    exact alive_of_keyDown (sound.phased.waiting_of_awaiting awaited) handled final

theorem shows_keyDown {moment : Moment} {view : View} {key : Key} {x : Register}
    (shows : moment.loop.machine.Shows view) (waiting : moment.loop.machine.Waiting x)
    (handled : moment.handled? = some (.keyDown key)) :
    ∃ next, view.play moment.reply?.toList = some next ∧ moment.next.machine.Shows next := by
  obtain ⟨keys, now, incident⟩ := incident_of_handled handled
  have received := next_of_handled incident handled
  have idle : moment.executes? = none := executes?_eq_none_of_awaiting waiting.awaiting
  have answered : moment.reply? = some (.key key) := by
    simp only [reply?, idle, handled, waiting.awaiting]
  obtain rfl := shows.alive (by simp [waiting.status])
  have learnt : moment.next.machine.view = moment.loop.machine.view.learn (.key key) := by
    simp only [received, Machine.receive, Machine.giveKey, View.learn, Machine.view,
      waiting.awaiting]
    rfl
  rw [answered]
  refine ⟨_, View.play_cons_eq_some_iff.mpr ⟨?_, rfl⟩, ?_⟩
  · simp only [View.question?, Machine.view, waiting.awaiting]
    rfl
  · rw [← learnt]
    exact .of_running (alive_of_keyDown waiting handled)

theorem shows_executes {moment : Moment} {view : View} {instruction : Instruction}
    (shows : moment.loop.machine.Shows view) (running : moment.loop.machine.Running)
    (executes : moment.executes? = some instruction) :
    ∃ next, view.play moment.reply?.toList = some next ∧ moment.next.machine.Shows next := by
  obtain ⟨keys, now, due, incident, fired, free, current, next⟩ := next_of_executes executes
  have answered : moment.reply? = some (moment.loop.machine.reply keys instruction) := by
    simp only [reply?, executes, Moment.keys, incident]
  obtain rfl := shows.alive (by simp [running.status])
  have learnt : moment.next.machine.view =
      moment.loop.machine.view.learn (moment.loop.machine.reply keys instruction) := by
    rw [next, Machine.view_goOn, Machine.view_after]
    simp only [View.learn, Machine.view, free, current]
    rfl
  rw [answered]
  refine ⟨_, View.play_cons_eq_some_iff.mpr ⟨?_, rfl⟩, ?_⟩
  · simp only [View.question?, Machine.view, free, current, Machine.question_reply]
  · rw [← learnt]
    exact .of_running (alive_of_executes running executes)

theorem shows_fault {moment : Moment} {view : View} {fault : Fault}
    (shows : moment.loop.machine.Shows view) (running : moment.loop.machine.Running)
    (current : moment.loop.machine.cpu.current = .error fault)
    (halted : moment.next.machine = moment.loop.machine.halt fault) :
    moment.next.machine.Shows view := by
  obtain rfl := shows.alive (by simp [running.status])
  rw [halted]
  refine ⟨?_, by simp [Machine.halt], ?_⟩
  · intro _
    exact (Machine.view_quiesce _).trans (View.release_of_free running.free)
  · intro other same
    obtain rfl : fault = other := by simpa [Machine.halt] using same
    exact ⟨running.free, current⟩

/-- What a moment does to a program: it gives it a reply, or does nothing to it. -/
theorem shows_next {moment : Moment} {view : View} (sound : moment.loop.Sound)
    (shows : moment.loop.machine.Shows view) :
    ∃ next, view.play moment.reply?.toList = some next ∧ moment.next.machine.Shows next := by
  cases moment.course with
  | nothing unhandled unfired same =>
    rw [reply?_eq_none (executes?_eq_none unfired) (by simp [unhandled]), same]
    exact ⟨view, rfl, shows⟩
  | stops _ unpressed unfired stopped =>
    rw [reply?_eq_none (executes?_eq_none unfired) (by simp [unpressed]), stopped]
    exact ⟨view, rfl, shows.stop⟩
  | @hears key _ now _ handled unfired received =>
    cases awaited : moment.loop.machine.cpu.awaiting with
    | none =>
      rw [reply?_eq_none (executes?_eq_none unfired) (fun _ _ => awaited), received]
      simp only [Machine.receive, Machine.giveKey, awaited]
      exact ⟨view, rfl, shows⟩
    | some x => exact shows_keyDown shows (sound.phased.waiting_of_awaiting awaited) handled
  | @ticks task _ _ _ timed unhandled fired performed =>
    rw [reply?_eq_none (executes?_eq_none_of_timer fired timed) (by simp [unhandled]), performed]
    refine ⟨view, rfl, shows.of_same ?_ ?_⟩
    · cases task <;> trivial
    · cases task <;> trivial
  | idles awaited _ fired =>
    have running := sound.running_of_fired fired
    simp [running.free] at awaited
  | halts _ _ current unhandled fired halted =>
    rw [reply?_eq_none (executes?_eq_none_of_error current) (by simp [unhandled])]
    exact ⟨view, rfl, shows_fault shows (sound.running_of_fired fired) current halted⟩
  | executes executes =>
    obtain ⟨_, _, _, _, fired, _⟩ := next_of_executes executes
    exact shows_executes shows (sound.running_of_fired fired) executes

end Moment

namespace Loop

theorem Sound.shows_follow {loop : Loop} (sound : loop.Sound) {view : View}
    (shows : loop.machine.Shows view) (incidents : List Incident) :
    ∃ next, view.play (replies (history incidents loop)) = some next ∧
      (Loop.follow incidents loop).machine.Shows next := by
  induction incidents generalizing loop view with
  | nil => exact ⟨view, rfl, shows⟩
  | cons incident rest ih =>
    obtain ⟨middle, first, shows⟩ := @Moment.shows_next ⟨loop, incident⟩ view sound shows
    obtain ⟨last, later, shows⟩ := ih (sound.meet incident) shows
    refine ⟨last, ?_, shows⟩
    have split : replies (history (incident :: rest) loop) =
        (Moment.mk loop incident).reply?.toList ++ replies (history rest (loop.meet incident)) := by
      rw [replies, history, List.filterMap_cons]
      cases (Moment.mk loop incident).reply? <;> rfl
    rw [split, View.play_append, first]
    exact later

theorem Sound.of_mem_history {loop : Loop} (sound : loop.Sound) {incidents : List Incident}
    {moment : Moment} (member : moment ∈ history incidents loop) : moment.loop.Sound := by
  obtain ⟨n, found⟩ := List.mem_iff_getElem?.mp member
  rw [(getElem?_history found).1]
  exact sound.follow _

end Loop

/-! ## Two runs -/

namespace Machine

variable {m twin : Machine} {view : View}

theorem Shows.release (shows : m.Shows view) : m.view.release = view.release := by
  by_cases stopped : m.status = .stopped
  · rw [shows.stopped stopped]
    rfl
  · rw [shows.alive stopped]

theorem Shows.fault? (shows : m.Shows view) {fault : Fault} (free : view.cpu.awaiting = none)
    (refused : view.cpu.current = .error fault) (keys : Key → Bool) (now : Instant) :
    m.fault? keys now = some fault := by
  have same : m.view = view := by
    by_cases stopped : m.status = .stopped
    · rw [shows.stopped stopped, View.release_of_free free]
    · exact shows.alive stopped
  subst same
  exact fault?_eq_some_iff.mpr ⟨free, refused⟩

theorem Shows.stuck (shows : m.Shows view) {fault : Fault} (halted : m.status = .halted fault) :
    view.question? = none := by
  obtain ⟨free, refused⟩ := shows.halted halted
  simp only [View.question?, free, refused]

/-- Two machines that show the same, but for the key that is awaited. -/
theorem Shows.same (shows : m.Shows view) (again : twin.Shows view) :
    m.cpu.v = twin.cpu.v ∧ m.cpu.i = twin.cpu.i ∧ m.cpu.pc = twin.cpu.pc ∧
      m.cpu.stack = twin.cpu.stack ∧ m.cpu.memory = twin.cpu.memory ∧
      m.display.screen = twin.display.screen ∧ m.random = twin.random ∧
      (m.status ≠ .stopped → twin.status ≠ .stopped → m.cpu.awaiting = twin.cpu.awaiting) := by
  have released : m.view.release = twin.view.release := shows.release.trans again.release.symm
  obtain ⟨cpu, screen, random, -⟩ := View.mk.inj released
  obtain ⟨pc, v, i, stack, -, memory⟩ := Cpu.mk.inj cpu
  refine ⟨v, i, pc, stack, memory, screen, random, ?_⟩
  intro alive twinAlive
  exact congrArg (·.cpu.awaiting) ((shows.alive alive).trans (again.alive twinAlive).symm)

theorem view_load (program : List UInt8) (same : m.view = twin.view) :
    (left (load program m)).view = (left (load program twin)).view := by
  obtain ⟨cpu, screen, random, shiftOperand⟩ := View.mk.inj same
  simp only [left_load]
  split
  · simp only [Machine.view, cpu, screen, random, shiftOperand]
  · exact same

/-- Before they are set going, machines into which the same was loaded show the same, if they draw on
the same random bytes and shift the same operand. -/
theorem view_assemble {settings other : Settings} {entropy fresh : StreamKey}
    (shift : settings.shiftOperand = other.shiftOperand)
    (random : (new settings entropy).random = (new other fresh).random)
    (programs : List (List UInt8)) :
    (assemble settings entropy programs).view = (assemble other fresh programs).view := by
  induction programs with
  | nil =>
    simp only [assemble, view, random]
    simp only [new, shift]
  | cons program earlier ih => exact view_load program ih

end Machine

namespace Loop

theorem start_shows (settings : Settings) (entropy : StreamKey) (programs : List (List UInt8))
    (now : Instant) (channel : Channel) :
    let loop : Loop := { machine := (Machine.assemble settings entropy programs).start now, channel }
    loop.Sound ∧ loop.machine.Shows (Machine.assemble settings entropy programs).view := by
  obtain ⟨-, -, -, free⟩ := Machine.assemble_fresh settings entropy programs
  exact ⟨.of_draining (Machine.start_phased free now) rfl,
    .of_running (by simp [Status.Final, Machine.start])⟩

/-- Two runs of machines that were set going with the same programs loaded, the same random bytes
ahead of them and the same operand to shift; the periods, the times, the keys held, the signals and
all else may differ. If the values that were read from the delay timer, the answers whether a key is
held and the keys that ended a wait agree as far as both runs go, then after the same number of
instructions and ended waits both have come to the same. This goes for the register that a key is
awaited for, too, unless one has been stopped since; right after an instruction or the end of a wait
none has. Once one has halted, the other has been given no more replies, and if as many, the
instruction that it has come to fails with the same fault. So if both have halted, they have done so
at the same instruction with the same fault, and this is how both end if neither is stopped. -/
theorem run_timeless {settings other : Settings} {entropy fresh : StreamKey}
    (shift : settings.shiftOperand = other.shiftOperand)
    (random : (Machine.new settings entropy).random = (Machine.new other fresh).random)
    (programs : List (List UInt8)) (start restart : Instant) (channel twinChannel : Channel)
    (incidents twinIncidents : List Incident) :
    let first : Loop :=
      { machine := (Machine.assemble settings entropy programs).start start, channel }
    let second : Loop :=
      { machine := (Machine.assemble other fresh programs).start restart, channel := twinChannel }
    let given := replies (history incidents first)
    let twinGiven := replies (history twinIncidents second)
    Agree (given.filterMap Reply.delay?) (twinGiven.filterMap Reply.delay?) →
    Agree (given.filterMap Reply.held?) (twinGiven.filterMap Reply.held?) →
    Agree (given.filterMap Reply.key?) (twinGiven.filterMap Reply.key?) →
    let loop := follow incidents first
    let twin := follow twinIncidents second
    (given.length = twinGiven.length →
      loop.machine.cpu.v = twin.machine.cpu.v ∧
      loop.machine.cpu.i = twin.machine.cpu.i ∧
      loop.machine.cpu.pc = twin.machine.cpu.pc ∧
      loop.machine.cpu.stack = twin.machine.cpu.stack ∧
      loop.machine.cpu.memory = twin.machine.cpu.memory ∧
      loop.machine.display.screen = twin.machine.display.screen ∧
      loop.machine.random = twin.machine.random ∧
      (loop.machine.status ≠ .stopped → twin.machine.status ≠ .stopped →
        loop.machine.cpu.awaiting = twin.machine.cpu.awaiting)) ∧
    (∀ moment ∈ history incidents first, moment.reply? ≠ none →
      ¬ moment.next.machine.status.Final) ∧
    (∀ fault, loop.machine.status = .halted fault →
      twinGiven.length ≤ given.length ∧
      (given.length = twinGiven.length →
        ∀ keys now, twin.machine.fault? keys now = some fault) ∧
      ∀ twinFault, twin.machine.status = .halted twinFault →
        twinFault = fault ∧ given.length = twinGiven.length) ∧
    (loop.phase = .returned → twin.phase = .returned →
      loop.machine.status ≠ .stopped → twin.machine.status ≠ .stopped →
      ∃ fault, loop.machine.status = .halted fault ∧ twin.machine.status = .halted fault) := by
  intro first second given twinGiven delays held keys loop twin
  obtain ⟨sound, shows⟩ := start_shows settings entropy programs start channel
  obtain ⟨twinSound, twinShows⟩ := start_shows other fresh programs restart twinChannel
  rw [← Machine.view_assemble shift random programs] at twinShows
  -- Either machine shows what the replies make of the program, so the replies are compared.
  obtain ⟨view, played, shows⟩ := sound.shows_follow shows incidents
  obtain ⟨twinView, twinPlayed, twinShows⟩ := twinSound.shows_follow twinShows twinIncidents
  have agree : Agree given twinGiven := View.agree_of_play played twinPlayed delays held keys
  have halts {fault twinFault : Fault} (halted : loop.machine.status = .halted fault)
      (twinHalted : twin.machine.status = .halted twinFault) :
      twinFault = fault ∧ given.length = twinGiven.length := by
    have count : given.length = twinGiven.length := Nat.le_antisymm
      (View.length_le_of_stuck twinPlayed played agree.symm (twinShows.stuck twinHalted))
      (View.length_le_of_stuck played twinPlayed agree (shows.stuck halted))
    obtain rfl := View.eq_of_play played twinPlayed agree count
    have refused := (shows.halted halted).2
    rw [(twinShows.halted twinHalted).2] at refused
    exact ⟨Except.error.inj refused, count⟩
  refine ⟨?_, fun _ member => Moment.alive_of_reply (sound.of_mem_history member), ?_, ?_⟩
  · intro count
    obtain rfl := View.eq_of_play played twinPlayed agree count
    exact shows.same twinShows
  · intro fault halted
    refine ⟨View.length_le_of_stuck played twinPlayed agree (shows.stuck halted), ?_,
      fun _ => halts halted⟩
    intro count held now
    obtain rfl := View.eq_of_play played twinPlayed agree count
    obtain ⟨free, refused⟩ := shows.halted halted
    exact twinShows.fault? free refused held now
  · intro returned twinReturned alive twinAlive
    have ended := (sound.follow incidents).returned returned
    have twinEnded := (twinSound.follow twinIncidents).returned twinReturned
    obtain ⟨fault, halted⟩ := ended.status.resolve_right alive
    obtain ⟨twinFault, twinHalted⟩ := twinEnded.status.resolve_right twinAlive
    obtain ⟨rfl, -⟩ := halts halted twinHalted
    exact ⟨_, halted, twinHalted⟩

/-- Sets the delay timer to two and reads it, then runs in a circle. -/
def brief : List UInt8 := [0x60, 0x02, 0xF0, 0x15, 0xF1, 0x07, 0x12, 0x06]

/-- In one run the timer has ticked, in the other a key was dropped. -/
theorem run_timeless_brief :
    let fast : Settings := { clockPeriod := 3, timerPeriod := 99 }
    let slow : Settings := { clockPeriod := 10, timerPeriod := 15 }
    let loop := follow (turns [0, 12, 22, 40])
      { machine := (Machine.assemble slow (Vector.replicate 8 0) [brief]).start 0 }
    let twin := follow (.send (.keyDown 5) :: turns [100, 103, 106, 106])
      { machine := (Machine.assemble fast (Vector.replicate 8 0) [brief]).start 100 }
    loop.machine.delay ≠ twin.machine.delay ∧
      loop.machine.cpu.v = twin.machine.cpu.v ∧ loop.machine.cpu.pc = twin.machine.cpu.pc := by
  intro fast slow
  have facts :
      (follow (turns [0, 12, 22, 40])
          { machine := (Machine.assemble slow (Vector.replicate 8 0) [brief]).start 0 }).machine.delay ≠
        (follow (.send (.keyDown 5) :: turns [100, 103, 106, 106])
          { machine := (Machine.assemble fast (Vector.replicate 8 0) [brief]).start 100 }).machine.delay ∧
      replies (history (turns [0, 12, 22, 40])
          { machine := (Machine.assemble slow (Vector.replicate 8 0) [brief]).start 0 }) =
        [.nothing, .nothing, .delay 2] ∧
      replies (history (.send (.keyDown 5) :: turns [100, 103, 106, 106])
          { machine := (Machine.assemble fast (Vector.replicate 8 0) [brief]).start 100 }) =
        [.nothing, .nothing, .delay 2] := by
    decide +kernel
  have compared := @run_timeless slow fast (Vector.replicate 8 0) (Vector.replicate 8 0) rfl rfl
    [brief] 0 100 {} {} (turns [0, 12, 22, 40]) (.send (.keyDown 5) :: turns [100, 103, 106, 106])
  -- From here on it does not matter which machines these are.
  generalize (Machine.assemble slow (Vector.replicate 8 0) [brief]).start 0 = early at facts compared ⊢
  generalize (Machine.assemble fast (Vector.replicate 8 0) [brief]).start 100 = late at facts compared ⊢
  obtain ⟨timers, given, twinGiven⟩ := facts
  have same := given.trans twinGiven.symm
  have agree {α : Type} (find : Reply → Option α) := Agree.of_eq (congrArg (List.filterMap find) same)
  obtain ⟨results, -⟩ := compared (agree Reply.delay?) (agree Reply.held?) (agree Reply.key?)
  obtain ⟨v, -, pc, -⟩ := results (congrArg List.length same)
  exact ⟨timers, v, pc⟩

end Loop
end ChipEight

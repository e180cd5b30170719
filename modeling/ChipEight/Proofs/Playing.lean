import ChipEight.Proofs.LoopRun
import ChipEight.Session

/-! A session and its loop. Whatever a session does by itself, its loop has made moves of its own and
nothing else has happened to it: a turn is one move or none, and a round is the three or four moves
from a quiet channel to the end of the next task. So what holds after every run of a loop holds of
every session that is played. -/
namespace ChipEight.Session

@[simp] theorem loop_note (s : Session) (notices : List Notice) : (s.note notices).loop = s.loop := by
  cases notices <;> rfl

@[simp] theorem crashed_note (s : Session) (notices : List Notice) :
    (s.note notices).crashed = s.crashed := by
  cases notices <;> rfl

@[simp] theorem keypad_note (s : Session) (notices : List Notice) :
    (s.note notices).keypad = s.keypad := by
  cases notices <;> rfl

theorem loop_act (s : Session) (move : Move) :
    (s.act move).loop = s.loop.apply (s.keypad.getD {}).isPressed s.clock move := by
  simp only [act, loop_note]

theorem loop_act_move (s : Session) :
    (s.act (s.loop.move s.clock)).loop =
      s.loop.meet (.move (s.keypad.getD {}).isPressed s.clock) :=
  s.loop_act _

theorem crashed_act (s : Session) (move : Move) : (s.act move).crashed = s.crashed := by
  simp only [act, crashed_note]

theorem keypad_act (s : Session) (move : Move) : (s.act move).keypad = s.keypad := by
  simp only [act, keypad_note]

/-- By these incidents the loop of one session has come to that of the other. The keypad is the
same. -/
structure Leads (s : Session) (incidents : List Incident) (later : Session) : Prop where
  keypad : later.keypad = s.keypad
  loop : later.loop = Loop.follow incidents s.loop

/-- Nothing has happened but moves of the loop, with the keys held that the keypad says. -/
def Follows (s later : Session) : Prop :=
  ∃ times : List Instant, s.Leads (times.map (.move (s.keypad.getD {}).isPressed)) later

variable {s later : Session}

theorem Leads.trans {middle : Session} {incidents others : List Incident}
    (first : s.Leads incidents middle) (second : middle.Leads others later) :
    s.Leads (incidents ++ others) later where
  keypad := second.keypad.trans first.keypad
  loop := by rw [second.loop, first.loop, Loop.follow_append]

theorem Follows.of_still (keypad : later.keypad = s.keypad) (loop : later.loop = s.loop) :
    s.Follows later :=
  ⟨[], keypad, loop⟩

theorem Follows.trans {middle : Session} (first : s.Follows middle) (second : middle.Follows later) :
    s.Follows later := by
  obtain ⟨earlier, there⟩ := first
  obtain ⟨times, here⟩ := second
  rw [there.keypad] at here
  refine ⟨earlier ++ times, ?_⟩
  rw [List.map_append]
  exact there.trans here

theorem follows_act (s : Session) : s.Follows (s.act (s.loop.move s.clock)) :=
  ⟨[s.clock], s.keypad_act _, s.loop_act_move⟩

theorem follows_sleep (s : Session) (due : Instant) : s.Follows (s.sleep due) := by
  unfold sleep
  split
  · exact .of_still rfl rfl
  · exact .of_still rfl rfl

theorem nextRound?_eq_some_iff {task : Task} {due : Instant} :
    s.nextRound? = some (task, due) ↔
      s.loop.phase = .draining ∧ s.loop.channel = {} ∧ s.loop.machine.agenda.next? = some (task, due) := by
  unfold nextRound?
  split
  next phase channel => simp [phase, channel, machine]
  next other =>
    simp only [reduceCtorEq, false_iff]
    rintro ⟨phase, channel, -⟩
    exact other phase channel

/-- In a round the loop looks at its channel, chooses the task, sleeps if that is not due yet, and
carries it out. -/
theorem follows_round {task : Task} {due : Instant} (next : s.nextRound? = some (task, due)) :
    s.Follows (s.take (.round task due)) := by
  obtain ⟨draining, quiet, first⟩ := nextRound?_eq_some_iff.mp next
  by_cases early : s.clock < due
  · have slept : s.sleep due = { s with clock := due + oversleep } := if_pos early
    refine ⟨[s.clock, s.clock, due + oversleep, due + oversleep], ?_, ?_⟩
    · rw [take, keypad_act, slept]
    · rw [take, loop_act, slept]
      exact (Loop.advance_sleep _ _ _ _ draining quiet first early (Nat.le_add_right ..)).symm
  · have awake : s.sleep due = s := if_neg early
    refine ⟨[s.clock, s.clock, s.clock], ?_, ?_⟩
    · rw [take, keypad_act, awake]
    · rw [take, loop_act, awake]
      exact (Loop.advance_due _ _ _ draining quiet first (Nat.not_lt.mp early)).symm

/-- A round is taken only if there is one to take, and an act is the move of the loop. -/
theorem turn_spec (s : Session) :
    (∀ task due, s.turn = .round task due → s.nextRound? = some (task, due)) ∧
      ∀ move, s.turn = .act move → move = s.loop.move s.clock := by
  unfold turn
  split
  next => simp
  next =>
    cases next : s.nextRound? with
    | some first =>
      obtain ⟨task, due⟩ := first
      dsimp only
      split
      · simp
      · split <;> simp
    | none =>
      cases move : s.loop.move s.clock with
      | wait => cases s.loop.phase <;> simp
      | perform task due =>
        dsimp only
        split <;> simp
      | _ => simp

theorem follows_take (s : Session) : s.Follows (s.take s.turn) := by
  obtain ⟨rounds, acts⟩ := s.turn_spec
  cases turn : s.turn with
  | rest | crash => exact .of_still rfl rfl
  | sleep due => exact s.follows_sleep due
  | act move =>
    obtain rfl := acts move turn
    exact s.follows_act
  | round task due => exact follows_round (rounds task due turn)

/-- Played until whatever is waited for, a session has let its loop make moves. -/
theorem follows_play (done : Session → Bool) (horizon : Option Nat) (fuel : Nat) (mark : Bookmark)
    (s : Session) : s.Follows (s.play done horizon fuel mark) := by
  induction fuel generalizing mark s with
  | zero => exact .of_still rfl rfl
  | succ fuel ih =>
    have first := s.follows_take
    unfold play
    split
    next => exact .of_still rfl rfl
    next =>
      split
      next => exact .of_still rfl rfl
      next task due turn =>
        rw [turn] at first
        split
        · exact .of_still rfl rfl
        · exact first.trans (ih ..)
      next => exact first.trans (ih ..)

theorem follows_playUntil (done : Session → Bool) (s : Session) : s.Follows (s.playUntil done) :=
  follows_play ..

theorem follows_elapse (duration : Nat) (s : Session) : s.Follows (s.elapse duration) :=
  (follows_playUntil _ s).trans (.of_still rfl rfl)

theorem follows_watched (s : Session) : s.Follows s.watched :=
  (follows_elapse watchTime s).trans (follows_play ..)

/-! ## A whole run -/

theorem connected_moves (keys : Key → Bool) (times : List Instant) (loop : Loop) :
    (Loop.follow (times.map (.move keys)) loop).channel.connected = loop.channel.connected := by
  induction times generalizing loop with
  | nil => rfl
  | cons now rest ih =>
    rw [List.map_cons, Loop.follow, ih]
    change (loop.apply keys now (loop.move now)).channel.connected = _
    cases loop.move now <;> rfl

theorem Follows.connected (follows : s.Follows later) :
    later.loop.channel.connected = s.loop.channel.connected := by
  obtain ⟨times, moves⟩ := follows
  rw [moves.loop, connected_moves]

theorem leads_send {signals : List Signal} (able : s.loop.channel.connected ∨ signals = []) :
    s.Leads (signals.map .send) (s.send signals) := by
  refine ⟨rfl, ?_⟩
  induction signals generalizing s with
  | nil => simp [send, Channel.send, Loop.follow]
  | cons signal rest ih =>
    have connected := able.resolve_right (List.cons_ne_nil signal rest)
    have first : (s.send [signal]).loop = s.loop.meet (.send signal) := (if_pos connected).symm
    rw [List.map_cons, Loop.follow, ← first, ← @ih (s.send [signal]) (.inl connected)]
    simp [send, Channel.send]

section
variable {signals late : List Signal} {leaves : Prop} [Decidable leaves]

theorem leads_sent (able : s.loop.channel.connected ∨ signals = []) :
    s.Leads (signals.map .send ++ if leaves then [.hangUp] else [])
      (if leaves then (s.send signals).hangUp else s.send signals) := by
  refine (leads_send able).trans ?_
  split
  · exact ⟨rfl, rfl⟩
  · exact ⟨rfl, rfl⟩

theorem connected_sent (connected : s.loop.channel.connected) (silent : leaves → late = []) :
    (if leaves then (s.send signals).hangUp else s.send signals).loop.channel.connected ∨
      late = [] := by
  split
  next left => exact .inr (silent left)
  next => exact .inl connected

end

/-- A session that is run from start to return is a run of the loop, in which signals are sent, the
loop moves, the late signals are sent, and the loop moves again. -/
theorem loop_run (clock : Instant) (m : Machine) (keypad : Keypad) (attention : Attention)
    (queued late : List Signal) {sender : Sender} (silent : sender = .leavesAtOnce → late = []) :
    ∃ times moreTimes : List Instant,
      (Session.run clock m keypad attention queued late sender).loop = Loop.follow
        ((queued.map .send ++ if sender = .leavesAtOnce then [.hangUp] else []) ++
          times.map (.move keypad.isPressed) ++
          (late.map .send ++ if sender = .leavesLate then [.hangUp] else []) ++
          moreTimes.map (.move keypad.isPressed))
        { machine := m } := by
  have keys : (opened clock m (some keypad) attention).keypad = some keypad := keypad_note ..
  have begun : (opened clock m (some keypad) attention).loop = { machine := m } := loop_note ..
  unfold Session.run
  generalize opened clock m (some keypad) attention = s at keys begun
  have connected : s.loop.channel.connected := by rw [begun]
  have first := @leads_sent s queued (sender = .leavesAtOnce) _ (.inl connected)
  have able := @connected_sent s queued late (sender = .leavesAtOnce) _ connected silent
  dsimp only
  generalize (if sender = .leavesAtOnce then (s.send queued).hangUp else s.send queued) = told
    at first able ⊢
  rw [← told.follows_watched.connected] at able
  have second := @leads_sent told.watched late (sender = .leavesLate) _ able
  obtain ⟨times, watched⟩ := told.follows_watched
  generalize (if sender = .leavesLate then (told.watched.send late).hangUp else
    told.watched.send late) = toldAgain at second ⊢
  obtain ⟨moreTimes, played⟩ := toldAgain.follows_playUntil isOver
  have path := ((first.trans watched).trans second).trans played
  rw [second.keypad, watched.keypad, first.keypad, keys] at path
  exact ⟨times, moreTimes, begun ▸ path.loop⟩

end ChipEight.Session

import ChipEight.Proofs.Events

/-! What a program computes, apart from time. A program sees the processor, the screen and the random
bytes. All that it learns of its surroundings are replies: the value of the delay timer, whether a key
is held, and the key that ends a wait. Each instruction or wait asks for at most one, and for which is
settled by what the program has come to. So the replies of each kind, in order, determine all. -/
namespace ChipEight

inductive Question
  | nothing
  | delay
  | held
  | key
deriving DecidableEq

inductive Reply
  | nothing
  | delay (value : UInt8)
  | held (answer : Bool)
  | key (pressed : Key)
deriving DecidableEq

namespace Reply

def question : Reply → Question
  | nothing => .nothing
  | delay _ => .delay
  | held _ => .held
  | key _ => .key

def delay? : Reply → Option UInt8
  | delay value => some value
  | _ => none

def held? : Reply → Option Bool
  | held answer => some answer
  | _ => none

def key? : Reply → Option Key
  | key pressed => some pressed
  | _ => none

theorem ext {x y : Reply} (question : x.question = y.question) (delay : x.delay? = y.delay?)
    (held : x.held? = y.held?) (key : x.key? = y.key?) : x = y := by
  cases x <;> cases y <;> simp_all [Reply.question, delay?, held?, key?]

/-- Replies to the same question are of one kind. -/
theorem alike {x y : Reply} (question : x.question = y.question) :
    x.delay?.isSome = y.delay?.isSome ∧ x.held?.isSome = y.held?.isSome ∧
      x.key?.isSome = y.key?.isSome := by
  cases x <;> cases y <;> simp_all [Reply.question, delay?, held?, key?]

end Reply

def Instruction.question : Instruction → Question
  | .readDelay _ => .delay
  | .skipIfPressed _ | .skipIfReleased _ => .held
  | _ => .nothing

/-- What a program sees. -/
structure View where
  cpu : Cpu
  screen : Screen
  random : RandomSource
  shiftOperand : ShiftOperand
deriving DecidableEq

namespace Machine

def view (m : Machine) : View where
  cpu := m.cpu
  screen := m.display.screen
  random := m.random
  shiftOperand := m.settings.shiftOperand

def reply (keys : Key → Bool) (m : Machine) : Instruction → Reply
  | .readDelay _ => .delay m.delay.value
  | .skipIfPressed x | .skipIfReleased x => .held (keys (m.cpu.keyIn x))
  | _ => .nothing

theorem question_reply (keys : Key → Bool) (m : Machine) (instruction : Instruction) :
    (m.reply keys instruction).question = instruction.question := by
  cases instruction <;> rfl

end Machine

namespace View

/-- A machine that shows the view and gives the reply. -/
def embody (view : View) (reply : Reply) : Machine where
  settings := { shiftOperand := view.shiftOperand }
  delay := ⟨reply.delay?.getD 0⟩
  random := view.random
  cpu := view.cpu
  display := { screen := view.screen }

/-- What a program comes to that is given the reply and carries out the instruction. -/
def carryOut (view : View) (reply : Reply) (instruction : Instruction) : View :=
  ((view.embody reply).after (fun _ => reply.held?.getD false) 0 instruction).moveOn.view

/-- The wait for a key is over without one. -/
def release (view : View) : View := { view with cpu := { view.cpu with awaiting := none } }

def question? (view : View) : Option Question :=
  match view.cpu.awaiting, view.cpu.current with
  | some _, _ => some .key
  | none, .ok instruction => some instruction.question
  | none, .error _ => none

/-- What becomes of a program that is given the reply. -/
def learn (view : View) (reply : Reply) : View :=
  match view.cpu.awaiting, view.cpu.current with
  | some x, _ =>
    { view with
      cpu := { view.cpu.setRegister x (reply.key?.getD 0).code with awaiting := none } }
  | none, .ok instruction => view.carryOut reply instruction
  | none, .error _ => view

/-- A program is given the replies to its questions, as long as they are replies to these. -/
def play : List Reply → View → Option View
  | [], view => some view
  | reply :: rest, view =>
    if view.question? = some reply.question then play rest (view.learn reply) else none

theorem play_append (first second : List Reply) (view : View) :
    play (first ++ second) view = (play first view).bind (play second) := by
  induction first generalizing view with
  | nil => rfl
  | cons reply rest ih =>
    simp only [List.cons_append, play]
    split
    · exact ih _
    · rfl

theorem play_cons_eq_some_iff {reply : Reply} {rest : List Reply} {view last : View} :
    play (reply :: rest) view = some last ↔
      view.question? = some reply.question ∧ play rest (view.learn reply) = some last := by
  rw [play]
  split
  next asked => simp [asked]
  next unasked => simp [unasked]

theorem eq_nil_of_play {replies : List Reply} {view last : View} (stuck : view.question? = none)
    (played : play replies view = some last) : replies = [] := by
  cases replies with
  | nil => rfl
  | cons reply rest => simp [(play_cons_eq_some_iff.mp played).1] at stuck

end View

/-- Whether something was drawn before plays no part in drawing. -/
theorem Display.draw_eq (display : Display) (x y : UInt8) (sprite : List UInt8) :
    (display.draw x y sprite).1.screen = (draw { screen := display.screen } x y sprite).1.screen ∧
      (display.draw x y sprite).2 = (draw { screen := display.screen } x y sprite).2 := by
  unfold draw
  split
  · exact ⟨rfl, rfl⟩
  · exact ⟨rfl, rfl⟩

/-- All that an instruction does to a program depends on what the program sees and on the reply. -/
theorem Machine.view_after (keys : Key → Bool) (now : Instant) (m : Machine)
    (instruction : Instruction) :
    (m.after keys now instruction).moveOn.view =
      m.view.carryOut (m.reply keys instruction) instruction := by
  cases instruction with
  | draw x y n =>
    obtain ⟨screen, erased⟩ := m.display.draw_eq (m.cpu.register x) (m.cpu.register y)
      (m.cpu.memory.slice m.cpu.i.toNat n.val)
    simp only [after, moveOn, view, screen, erased]
    rfl
  | _ => rfl

/-! ## Replies that agree -/

/-- One of two lists goes on where the other ends. -/
def Agree {α : Type} (xs ys : List α) : Prop := xs <+: ys ∨ ys <+: xs

namespace Agree

theorem symm {α : Type} {xs ys : List α} (agree : Agree xs ys) : Agree ys xs := Or.symm agree

theorem of_eq {α : Type} {xs ys : List α} (same : xs = ys) : Agree xs ys := by
  rw [same]
  exact .inl (List.prefix_refl ys)

theorem cons_iff {α : Type} {x y : α} {xs ys : List α} :
    Agree (x :: xs) (y :: ys) ↔ x = y ∧ Agree xs ys := by
  simp only [Agree, List.cons_prefix_cons, eq_comm (a := y), and_or_left]

theorem eq_of_length {α : Type} {xs ys : List α} (agree : Agree xs ys)
    (count : xs.length = ys.length) : xs = ys := by
  rcases agree with first | second
  · exact first.eq_of_length count
  · exact (second.eq_of_length count.symm).symm

/-- Where lists agree on what is found in them, they agree on what is found first, if it is found in
the first place of both or of neither. -/
theorem of_filterMap_cons {α β : Type} {find : α → Option β} {x y : α} {xs ys : List α}
    (alike : (find x).isSome = (find y).isSome)
    (agree : Agree ((x :: xs).filterMap find) ((y :: ys).filterMap find)) :
    find x = find y ∧ Agree (xs.filterMap find) (ys.filterMap find) := by
  cases first : find x with
  | none =>
    have second : find y = none := by simpa [first] using alike.symm
    rw [List.filterMap_cons_none first, List.filterMap_cons_none second] at agree
    exact ⟨second.symm, agree⟩
  | some value =>
    obtain ⟨other, second⟩ : ∃ other, find y = some other :=
      Option.isSome_iff_exists.mp (by rw [← alike, first]; rfl)
    rw [List.filterMap_cons_some first, List.filterMap_cons_some second, cons_iff] at agree
    exact ⟨by rw [second, agree.1], agree.2⟩

end Agree

/-- The replies are the same up to the end of the shorter run, if those of each kind are. -/
theorem View.agree_of_play {xs ys : List Reply} {view first second : View}
    (one : view.play xs = some first) (two : view.play ys = some second)
    (delays : Agree (xs.filterMap Reply.delay?) (ys.filterMap Reply.delay?))
    (held : Agree (xs.filterMap Reply.held?) (ys.filterMap Reply.held?))
    (keys : Agree (xs.filterMap Reply.key?) (ys.filterMap Reply.key?)) : Agree xs ys := by
  induction xs generalizing view ys with
  | nil => exact .inl List.nil_prefix
  | cons x xs ih =>
    cases ys with
    | nil => exact .inr List.nil_prefix
    | cons y ys =>
      obtain ⟨asked, one⟩ := play_cons_eq_some_iff.mp one
      obtain ⟨again, two⟩ := play_cons_eq_some_iff.mp two
      have question : x.question = y.question := Option.some.inj (asked.symm.trans again)
      obtain ⟨someDelay, someHeld, someKey⟩ := Reply.alike question
      obtain ⟨sameDelay, restDelays⟩ := delays.of_filterMap_cons someDelay
      obtain ⟨sameHeld, restHeld⟩ := held.of_filterMap_cons someHeld
      obtain ⟨sameKey, restKeys⟩ := keys.of_filterMap_cons someKey
      obtain rfl := Reply.ext question sameDelay sameHeld sameKey
      exact Agree.cons_iff.mpr ⟨rfl, ih one two restDelays restHeld restKeys⟩

theorem View.eq_of_play {xs ys : List Reply} {view first second : View}
    (one : view.play xs = some first) (two : view.play ys = some second) (agree : Agree xs ys)
    (count : xs.length = ys.length) : first = second := by
  obtain rfl := agree.eq_of_length count
  exact Option.some.inj (one.symm.trans two)

/-- No run goes beyond the place where another is stuck. -/
theorem View.length_le_of_stuck {xs ys : List Reply} {view first second : View}
    (one : view.play xs = some first) (two : view.play ys = some second) (agree : Agree xs ys)
    (stuck : first.question? = none) : ys.length ≤ xs.length := by
  rcases agree with ⟨more, rfl⟩ | shorter
  · rw [play_append, one] at two
    simp [eq_nil_of_play stuck two]
  · exact shorter.length_le

end ChipEight

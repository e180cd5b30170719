import ChipEight.Proofs.CallStack
import ChipEight.Proofs.LoopRun

/-! Where random bytes go. Of all that can be done to a machine, only the instruction that asks for a
random byte takes one from the stream, and it always does. So the place in the stream is the number of
these instructions that were carried out, and each is given the byte of its own number. What is said
of taking bytes holds for any keyed stream. -/
namespace ChipEight

namespace StreamSource

variable {K : Type} {blocks : K → Nat → Vector UInt32 16}

/-- The source once `count` bytes were taken from it. -/
def skip (source : StreamSource blocks) : Nat → StreamSource blocks
  | 0 => source
  | count + 1 => source.next.2.skip count

theorem place_skip (source : StreamSource blocks) (count : Nat) :
    (source.skip count).key = source.key ∧
      (source.skip count).position = source.position + count := by
  induction count generalizing source with
  | zero => exact ⟨rfl, rfl⟩
  | succ count ih =>
    obtain ⟨key, position⟩ := ih source.next.2
    refine ⟨key.trans source.key_next, position.trans ?_⟩
    rw [source.position_next, Nat.add_assoc, Nat.add_comm 1 count]

theorem fst_next_skip (source : StreamSource blocks) (count : Nat) :
    (source.skip count).next.1 = byteAt blocks source.key (source.position + count) := by
  obtain ⟨key, position⟩ := source.place_skip count
  rw [fst_next, key, position]

theorem eq_of_place {source other : StreamSource blocks} (key : source.key = other.key)
    (position : source.position = other.position) : source = other := by
  obtain ⟨streamKey, place, _, rfl⟩ := source
  obtain ⟨_, _, _, rfl⟩ := other
  obtain rfl : streamKey = _ := key
  obtain rfl : place = _ := position
  rfl

end StreamSource

/-- A random byte that was asked for, and what its register held afterwards. -/
structure RandomDraw where
  x : Register
  mask : UInt8
  stored : UInt8
deriving DecidableEq

namespace Machine

/-- The random byte that an occasion asks for. -/
def randomDraw? (m : Machine) (occasion : Occasion) : Option RandomDraw :=
  match m.executes? occasion with
  | some (.random x mask) => some ⟨x, mask, (m.operate occasion).cpu.register x⟩
  | _ => none

def randomDraws : List Occasion → Machine → List RandomDraw
  | [], _ => []
  | occasion :: rest, m => (m.randomDraw? occasion).toList ++ randomDraws rest (m.operate occasion)

variable {m : Machine} {occasion : Occasion} {instruction : Instruction}

theorem random_after (keys : Key → Bool) (now : Instant) (m : Machine) (instruction : Instruction) :
    (m.after keys now instruction).random =
      match instruction with
      | .random .. => m.random.next.2
      | _ => m.random := by
  cases instruction <;> rfl

theorem random_goOn (m : Machine) (due : Instant) : (m.goOn due).random = m.random := by
  unfold goOn
  split <;> rfl

theorem random_stop (m : Machine) : m.stop.random = m.random := by
  unfold stop
  split <;> rfl

theorem random_giveKey (m : Machine) (key : Key) : (m.giveKey key).1.random = m.random := by
  unfold giveKey
  split <;> rfl

theorem random_receive (now : Instant) (m : Machine) (signal : Signal) :
    (m.receive now signal).random = m.random := by
  cases signal with
  | stop => exact random_stop m
  | keyDown key =>
    unfold receive giveKey
    cases m.cpu.awaiting <;> rfl

theorem random_left_load (program : List UInt8) (m : Machine) :
    (left (load program m)).random = m.random := by
  rw [left_load]
  split <;> rfl

theorem random_left_step (keys : Key → Bool) (now : Instant) (m : Machine) :
    (left (step keys now m)).random =
      match m.carriesOut? keys now with
      | some instruction => (m.after keys now instruction).random
      | none => m.random := by
  rw [step_eq, carriesOut?_eq]
  cases m.cpu.awaiting with
  | some x => rfl
  | none => cases m.cpu.current <;> rfl

theorem random_perform_cycle (keys : Key → Bool) (now due : Instant) (m : Machine) :
    (m.perform keys now .cycle due).random =
      match m.carriesOut? keys now with
      | some instruction => (m.after keys now instruction).random
      | none => m.random := by
  rw [carriesOut?_eq]
  cases free : m.cpu.awaiting with
  | some x => rw [perform_cycle_awaiting free]
  | none =>
    cases current : m.cpu.current with
    | error fault =>
      rw [perform_cycle_error free current]
      rfl
    | ok instruction =>
      rw [perform_cycle_ok free current, random_goOn]
      cases instruction <;> rfl

/-- Waits, faults, ticks, keys, signals and programs take nothing from the stream. -/
theorem random_operate (m : Machine) (occasion : Occasion) :
    (m.operate occasion).random =
      match m.executes? occasion with
      | some (.random ..) => m.random.next.2
      | _ => m.random := by
  obtain ⟨keys, now, operation⟩ := occasion
  have carried : (match m.carriesOut? keys now with
      | some instruction => (m.after keys now instruction).random
      | none => m.random) =
      match m.carriesOut? keys now with
      | some (.random ..) => m.random.next.2
      | _ => m.random := by
    cases m.carriesOut? keys now with
    | none => rfl
    | some instruction =>
      simp only [random_after]
      cases instruction <;> rfl
  cases operation with
  | load program => exact random_left_load program m
  | loadFrom reads =>
    simp only [operate, left_loadFrom]
    cases reads.gather with
    | ok pieces => exact random_left_load _ m
    | error cause => rfl
  | start => rfl
  | step => exact (random_left_step keys now m).trans carried
  | giveKey key => exact random_giveKey m key
  | perform task due =>
    cases task with
    | cycle =>
      simp only [operate, executes?, carriesOut?_agenda]
      exact (random_perform_cycle keys now due m).trans carried
    | delay | sound => rfl
  | receive signal => exact random_receive now m signal

/-- What an occasion may do to the stream: take the next byte for a register, or nothing. -/
inductive RandomStep (m : Machine) (occasion : Occasion) (next : Machine) : Prop
  | draw {x : Register} {mask : UInt8}
    (drawn : m.randomDraw? occasion =
      some ⟨x, mask, m.random.next.1 &&& mask⟩)
    (taken : next.random = m.random.next.2)
  | nothing (undrawn : m.randomDraw? occasion = none) (same : next.random = m.random)

theorem randomStep (m : Machine) (occasion : Occasion) :
    m.RandomStep occasion (m.operate occasion) := by
  have random := random_operate m occasion
  cases executed : m.executes? occasion with
  | none =>
    rw [executed] at random
    exact .nothing (by rw [randomDraw?, executed]) random
  | some instruction =>
    rw [executed] at random
    cases instruction with
    | random x mask =>
      have stored : (m.operate occasion).cpu.register x = m.random.next.1 &&& mask := by
        rw [(cpu_operate executed).2]
        exact (Cpu.register_setRegister m.cpu x x _).trans (if_pos rfl)
      have drawn : m.randomDraw? occasion =
          some ⟨x, mask, (m.operate occasion).cpu.register x⟩ := by rw [randomDraw?, executed]
      rw [stored] at drawn
      exact .draw drawn random
    | _ => exact .nothing (by rw [randomDraw?, executed]) random

theorem random_run (occasions : List Occasion) (m : Machine) :
    (run occasions m).random = m.random.skip (randomDraws occasions m).length := by
  induction occasions generalizing m with
  | nil => rfl
  | cons occasion rest ih =>
    rw [run, ih, randomDraws, List.length_append]
    cases m.randomStep occasion with
    | draw drawn taken =>
      rw [drawn, taken, Option.toList_some, List.length_singleton, Nat.add_comm, StreamSource.skip]
    | nothing undrawn same => rw [undrawn, same, Option.toList_none, List.length_nil, Nat.zero_add]

/-- Each byte asked for in a run is the next one after those asked for before. -/
theorem stored_run {occasions : List Occasion} {k : Nat} {draw : RandomDraw}
    (drawn : (randomDraws occasions m)[k]? = some draw) :
    draw.stored = (m.random.skip k).next.1 &&& draw.mask := by
  induction occasions generalizing m k with
  | nil => simp [randomDraws] at drawn
  | cons occasion rest ih =>
    rw [randomDraws] at drawn
    cases m.randomStep occasion with
    | draw first taken =>
      rw [first, Option.toList_some, List.singleton_append] at drawn
      cases k with
      | zero =>
        rw [List.getElem?_cons_zero, Option.some.injEq] at drawn
        rw [← drawn, StreamSource.skip]
      | succ k =>
        rw [List.getElem?_cons_succ] at drawn
        rw [ih drawn, taken, StreamSource.skip]
    | nothing undrawn same =>
      rw [undrawn, Option.toList_none, List.nil_append] at drawn
      rw [ih drawn, same]

theorem random_new {settings : Settings} {seed : UInt64} (seeded : settings.seed = some seed)
    (entropy : StreamKey) : (new settings entropy).random = .seeded seed := by
  simp only [new, seeded]

/-- Random bytes in any run of a new machine with a seed. The instruction with number `k` of those
that ask for a random byte leaves byte `k` of the seed's stream in its register, under its mask,
whatever lies in between and whatever the masks are. The place in the stream is the number of them, so
machines with the same seed that carried out as many of them go on with the same bytes. A loop takes
no byte by itself: what it does to its machine is another such run. -/
theorem run_random {settings : Settings} {seed : UInt64} (seeded : settings.seed = some seed)
    (entropy : StreamKey) (occasions : List Occasion) :
    let fresh := new settings entropy
    let m := run occasions fresh
    let drawn := randomDraws occasions fresh
    let stream := RandomSource.byteAt (SeedStretch.key seed)
    (∀ k draw, drawn[k]? = some draw → draw.stored = stream k &&& draw.mask) ∧
    m.random.key = SeedStretch.key seed ∧ m.random.position = drawn.length ∧
    (∀ (other : Settings) (noise : StreamKey) (others : List Occasion), other.seed = some seed →
      (randomDraws others (new other noise)).length = drawn.length →
      (run others (new other noise)).random = m.random) ∧
    ∀ (loop : Loop) (incidents : List Incident), loop.machine = m →
      (Loop.follow incidents loop).machine =
        run (occasions ++ Loop.occasions incidents loop) fresh := by
  intro fresh m drawn stream
  have placed {settings : Settings} (seeded : settings.seed = some seed) (entropy : StreamKey)
      (occasions : List Occasion) :
      (run occasions (new settings entropy)).random.key = SeedStretch.key seed ∧
        (run occasions (new settings entropy)).random.position =
          (randomDraws occasions (new settings entropy)).length := by
    obtain ⟨key, position⟩ := (RandomSource.seeded seed).place_skip
      (randomDraws occasions (new settings entropy)).length
    rw [random_run, random_new seeded]
    exact ⟨key, position.trans (Nat.zero_add _)⟩
  obtain ⟨key, position⟩ := placed seeded entropy occasions
  refine ⟨?_, key, position, ?_, ?_⟩
  · intro k draw found
    have stored := stored_run found
    rw [random_new seeded, StreamSource.fst_next_skip] at stored
    exact stored.trans (by rw [RandomSource.seeded, Nat.zero_add])
  · intro other noise others same count
    obtain ⟨otherKey, otherPosition⟩ := placed same noise others
    refine StreamSource.eq_of_place (otherKey.trans key.symm) ?_
    rw [otherPosition, count, position]
  · intro loop incidents same
    rw [Loop.machine_follow, same, run_append]

/-- A random byte under the mask 0, a fault, another program, a wait that a cycle finds and a key ends,
and a second random byte. -/
def roving : List Occasion :=
  [.load [0xC0, 0x00, 0xFF, 0xFF], .step, .step, .load [0x00, 0x00, 0xF1, 0x0A, 0xC2, 0xFF], .step,
    .perform .cycle 5, .giveKey 3, .step].map (Occasion.mk (fun _ => false) 0)

theorem run_random_roving :
    randomDraws roving (new { seed := some 42 } (Vector.replicate 8 0)) =
      [⟨0, 0, 0⟩, ⟨2, 0xFF, 99⟩] ∧
    99 = RandomSource.byteAt (SeedStretch.key 42) 1 &&& 0xFF ∧
    (run roving (new { seed := some 42 } (Vector.replicate 8 0))).random.position = 2 := by
  have drawn : randomDraws roving (new { seed := some 42 } (Vector.replicate 8 0)) =
      [⟨0, 0, 0⟩, ⟨2, 0xFF, 99⟩] := by decide +kernel
  obtain ⟨stored, -, position, -⟩ :=
    @run_random { seed := some 42 } 42 rfl (Vector.replicate 8 0) roving
  rw [drawn] at stored position
  exact ⟨drawn, stored 1 ⟨2, 0xFF, 99⟩ rfl, position⟩

end Machine
end ChipEight

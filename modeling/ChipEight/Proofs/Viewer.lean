import ChipEight.Screen.Display
import Mathlib.Data.List.Induction

/-! The display between the machine that draws and the viewer that takes frames. Drawing is two
steps: the pixels are changed, then the flag is put up. A viewer that comes in between may take the
flag down for pixels it has seen, or find it down before it is put up; either way no change is lost.
What carries this is that the viewer has the current pixels, the flag is up, or the machine is about
to put it up (`Shared.Faithful`). -/
namespace ChipEight.Display

inductive Call
  | clear
  | draw (x y : UInt8) (sprite : List UInt8)
  | frame
  | snapshot

/-- Whether a call touches the pixels. A sprite that starts off the screen does not. -/
def Call.draws : Call → Bool
  | .clear => true
  | .draw x y _ => x.toNat < 64 ∧ y.toNat < 32
  | .frame | .snapshot => false

def call (display : Display) : Call → Display
  | .clear => display.clear
  | .draw x y sprite => (display.draw x y sprite).1
  | .frame => display.frame.2
  | .snapshot => display

def returned (display : Display) : Call → Option Screen
  | .frame => display.frame.1
  | .clear | .draw .. | .snapshot => none

def run : List Call → Display → Display
  | [], display => display
  | call :: rest, display => run rest (display.call call)

/-- The frames that a sequence of calls returns, in order. -/
def frames : List Call → Display → List Screen
  | [], _ => []
  | call :: rest, display => (display.returned call).toList ++ frames rest (display.call call)

/-- Whether no frame was ever taken, or pixels were touched since the last one. -/
def Unseen (calls : List Call) : Prop :=
  .frame ∉ calls ∨
    ∃ before call after, calls = before ++ call :: after ∧ call.draws ∧ .frame ∉ after

/-! ### Call after call -/

theorem run_concat (calls : List Call) (call : Call) (display : Display) :
    run (calls ++ [call]) display = (run calls display).call call := by
  induction calls generalizing display with
  | nil => rfl
  | cons first rest ih => exact ih _

theorem unseen_concat (calls : List Call) (call : Call) :
    Unseen (calls ++ [call]) ↔ call ≠ .frame ∧ (call.draws ∨ Unseen calls) := by
  constructor
  · rintro (never | ⟨before, drawn, after, place, draws, since⟩)
    · simp only [List.mem_append, List.mem_singleton, not_or] at never
      exact ⟨Ne.symm never.2, .inr (.inl never.1)⟩
    · rcases List.eq_nil_or_concat after with rfl | ⟨middle, last, rfl⟩
      · obtain ⟨-, same⟩ := List.append_inj' place rfl
        obtain rfl := List.singleton_inj.mp same
        refine ⟨?_, .inl draws⟩
        rintro rfl
        contradiction
      · rw [List.concat_eq_append] at place since
        rw [← List.cons_append, ← List.append_assoc] at place
        obtain ⟨rfl, same⟩ := List.append_inj' place rfl
        obtain rfl := List.singleton_inj.mp same
        simp only [List.mem_append, List.mem_singleton, not_or] at since
        exact ⟨Ne.symm since.2, .inr (.inr ⟨before, drawn, middle, rfl, draws, since.1⟩)⟩
  · rintro ⟨other, draws | never | ⟨before, drawn, after, rfl, draws, since⟩⟩
    · exact .inr ⟨calls, call, [], rfl, draws, List.not_mem_nil⟩
    · exact .inl (by simp [never, Ne.symm other])
    · exact .inr ⟨before, drawn, after ++ [call], by simp, draws, by simp [since, Ne.symm other]⟩

theorem dirty_call (display : Display) (call : Call) :
    (display.call call).dirty ↔ call ≠ .frame ∧ (call.draws ∨ display.dirty) := by
  cases call with
  | clear | frame | snapshot => simp [Display.call, clear, frame, Call.draws]
  | draw x y sprite =>
    by_cases on : x.toNat < 64 ∧ y.toNat < 32
    · simp [Display.call, draw, Call.draws, on]
    · simp [Display.call, draw, Call.draws, on]

/-- The flag of a new display tells after any calls whether there is something to see. -/
theorem dirty_run (calls : List Call) : (run calls {}).dirty ↔ Unseen calls := by
  induction calls using List.reverseRecOn with
  | nil => exact iff_of_true rfl (.inl List.not_mem_nil)
  | append_singleton calls call ih => rw [run_concat, dirty_call, unseen_concat, ih]

/-! ### Two threads -/

/-- A display in use. `writing`: the machine has changed pixels and not yet put the flag up.
`shown`: the last frame that the viewer was given. -/
structure Shared where
  display : Display := {}
  writing : Bool := false
  shown : Option Screen := none

/-- What one thread does without the other coming in between. -/
inductive Access
  | change (call : Call)
  | mark
  | frame
  | snapshot

/-- The machine changes no pixels before it has put the flag up for the last change, and puts it up
only for a change. -/
def Shared.take (shared : Shared) : Access → Shared
  | .change call =>
    if call.draws ∧ shared.writing = false then
      { shared with display.screen := (shared.display.call call).screen, writing := true }
    else shared
  | .mark =>
    if shared.writing then { shared with display.dirty := true, writing := false } else shared
  | .frame =>
    { shared with
      display := shared.display.frame.2
      shown := shared.display.frame.1.or shared.shown }
  | .snapshot => shared

def Shared.run : List Access → Shared → Shared
  | [], shared => shared
  | access :: rest, shared => run rest (shared.take access)

def Call.accesses : Call → List Access
  | .frame => [.frame]
  | .snapshot => [.snapshot]
  | call => [.change call, .mark]

/-- No change is lost: what the viewer does not have is announced, or about to be. -/
def Shared.Faithful (shared : Shared) : Prop :=
  shared.display.dirty ∨ shared.writing ∨ shared.shown = some shared.display.screen

namespace Shared

theorem run_append (accesses later : List Access) (shared : Shared) :
    run (accesses ++ later) shared = run later (run accesses shared) := by
  induction accesses generalizing shared with
  | nil => rfl
  | cons access rest ih => exact ih _

theorem run_accesses (call : Call) (display : Display) (shown : Option Screen) :
    run call.accesses ⟨display, false, shown⟩ =
      ⟨display.call call, false, (display.returned call).or shown⟩ := by
  cases call with
  | clear | frame | snapshot => rfl
  | draw x y sprite =>
    by_cases on : x.toNat < 64 ∧ y.toNat < 32
    · simp [Call.accesses, run, take, Call.draws, Display.call, returned, draw, on]
    · simp [Call.accesses, run, take, Call.draws, Display.call, returned, draw, on]

theorem run_flatMap (calls : List Call) (display : Display) (shown : Option Screen) :
    run (calls.flatMap Call.accesses) ⟨display, false, shown⟩ =
      ⟨Display.run calls display, false, (frames calls display).getLast?.or shown⟩ := by
  induction calls generalizing display shown with
  | nil => rfl
  | cons call rest ih =>
    rw [List.flatMap_cons, run_append, run_accesses, ih, frames, List.getLast?_append,
      Option.or_assoc]
    cases display.returned call <;> rfl

theorem take_faithful {shared : Shared} (faithful : shared.Faithful) (access : Access) :
    (shared.take access).Faithful := by
  cases access with
  | change call =>
    simp only [take]
    split
    next => exact .inr (.inl rfl)
    next => exact faithful
  | mark =>
    simp only [take]
    split
    next => exact .inl rfl
    next => exact faithful
  | frame =>
    cases flag : shared.display.dirty with
    | true => exact .inr (.inr (by simp [take, Display.frame, flag]))
    | false =>
      rcases faithful with dirty | writing | same
      · simp [flag] at dirty
      · exact .inr (.inl writing)
      · exact .inr (.inr (by simpa [take, Display.frame, flag] using same))
  | snapshot => exact faithful

theorem run_faithful (accesses : List Access) {shared : Shared} (faithful : shared.Faithful) :
    (run accesses shared).Faithful := by
  induction accesses generalizing shared with
  | nil => exact faithful
  | cons access rest ih => exact ih (take_faithful faithful access)

end Shared

/-- The viewer misses nothing. After any calls on a new display `frame` returns the screen if none was
taken before or pixels were touched since, and otherwise nothing; then the last frame returned is
the screen as it is. The same holds however the machine's two steps and the viewer's frames come to
lie: if the flag is down and the machine is not between its steps, the viewer has the current pixels,
and if it has not, the next step of the machine puts the flag up. A call that is not interrupted is
the call as a whole. -/
theorem viewer_misses_nothing :
    (∀ calls : List Call,
      let display := run calls {}
      let frame := display.frame.1
      (Unseen calls → frame = some display.screen) ∧
      (¬ Unseen calls → frame = none) ∧
      (frame = none → (frames calls {}).getLast? = some display.screen)) ∧
    (∀ accesses : List Access,
      let shared := Shared.run accesses {}
      (shared.display.dirty = false → shared.writing = false →
        shared.shown = some shared.display.screen) ∧
      (shared.display.dirty = false → shared.shown ≠ some shared.display.screen →
        shared.writing = true ∧
        (shared.take .mark).display = { shared.display with dirty := true })) ∧
    ∀ (call : Call) (display : Display) (shown : Option Screen),
      Shared.run call.accesses ⟨display, false, shown⟩ =
        ⟨display.call call, false, (display.returned call).or shown⟩ := by
  have faithful (accesses : List Access) : (Shared.run accesses {}).Faithful :=
    Shared.run_faithful accesses (.inl rfl)
  refine ⟨fun calls => ?_, fun accesses => ?_, Shared.run_accesses⟩
  · intro display frame
    rw [← dirty_run]
    refine ⟨fun dirty => by simp [frame, Display.frame, display, dirty],
      fun clean => by simpa [frame, Display.frame] using clean, fun none => ?_⟩
    have clean : display.dirty = false := by simpa [frame, Display.frame] using none
    have valid := faithful (calls.flatMap Call.accesses)
    rw [Shared.run_flatMap, Option.or_none] at valid
    rcases valid with dirty | writing | same
    · exact absurd (clean.symm.trans dirty) Bool.false_ne_true
    · contradiction
    · exact same
  · intro shared
    have writing (clean : shared.display.dirty = false)
        (apart : shared.shown ≠ some shared.display.screen) : shared.writing = true := by
      rcases faithful accesses with dirty | writing | same
      · exact absurd (clean.symm.trans dirty) Bool.false_ne_true
      · exact writing
      · exact absurd same apart
    refine ⟨fun clean idle => ?_, fun clean apart => ⟨writing clean apart, ?_⟩⟩
    · refine Classical.byContradiction fun apart => ?_
      exact Bool.false_ne_true (idle.symm.trans (writing clean apart))
    · simp [Shared.take, writing clean apart]

end ChipEight.Display

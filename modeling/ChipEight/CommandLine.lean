import ChipEight.Machine.Basic

/-! The command line: one program file and a few options. An option's value may be the next
argument or follow an equals sign. A value given as the next argument is taken at once but
judged only when the next argument is understood, or at the end; an argument that is not
understood is therefore reported before a bad value in front of it. -/
namespace ChipEight

structure Arguments where
  rom : String
  clockHz : UInt32 := 500
  shiftVy : Bool := false
  seed : Option UInt64 := none
  scale : UInt32 := 10
deriving DecidableEq

namespace Arguments

/-- A clock rate of zero counts as one. -/
def settings (arguments : Arguments) : Settings where
  clockPeriod := 1000000000 / max arguments.clockHz.toNat 1
  shiftOperand := if arguments.shiftVy then .vy else .vx
  seed := arguments.seed

end Arguments

inductive Refusal
  | helpWanted
  | versionWanted
  | unknownArgument
  | repeated
  | valueNotTaken
  | missingProgram
  | missingValue
  | badValue
deriving DecidableEq

/-- Asking for help or for the version is a success. -/
def Refusal.exitCode : Refusal → UInt32
  | helpWanted | versionWanted => 0
  | _ => 2

namespace CommandLine

inductive Slot
  | rom
  | clockHz
  | seed
  | scale
deriving DecidableEq

inductive Flag
  | help
  | version
  | shiftVy
deriving DecidableEq

/-- What the name of an option stands for. -/
inductive Switch
  | flag (flag : Flag)
  | slot (slot : Slot)
deriving DecidableEq

def long? : String → Option Switch
  | "help" => some (.flag .help)
  | "version" => some (.flag .version)
  | "shift-vy" => some (.flag .shiftVy)
  | "clock-hz" => some (.slot .clockHz)
  | "seed" => some (.slot .seed)
  | "scale" => some (.slot .scale)
  | _ => none

def short? : Char → Option Flag
  | 'h' => some .help
  | 'V' => some .version
  | _ => none

/-- A number of one or more ASCII digits. -/
def digits? (text : List Char) : Option Nat :=
  if text.isEmpty || text.any (!·.isDigit) then none
  else some (text.foldl (fun value c => 10 * value + (c.toNat - '0'.toNat)) 0)

def integer? : List Char → Option Int
  | '+' :: text => (digits? text).map Int.ofNat
  | '-' :: text => (digits? text).map fun value => -Int.ofNat value
  | text => (digits? text).map Int.ofNat

def natural? : List Char → Option Nat
  | '+' :: text => digits? text
  | text => digits? text

/-- Options of 32 bits are read as integers, so that a negative zero passes. -/
def word32? (text : String) : Option UInt32 :=
  match integer? text.toList with
  | some value => if 0 ≤ value ∧ value < 0x100000000 then some (.ofNat value.toNat) else none
  | none => none

def word64? (text : String) : Option UInt64 :=
  match natural? text.toList with
  | some value => if value < 0x10000000000000000 then some (.ofNat value) else none
  | none => none

/-- What has been judged so far. -/
structure Given where
  rom : Option String := none
  clockHz : Option UInt32 := none
  seed : Option UInt64 := none
  scale : Option UInt32 := none
  shiftVy : Bool := false
deriving DecidableEq

namespace Given

/-- Keeps the first value of a slot. -/
def once {α : Type} (old new : Option α) : Except Refusal (Option α) :=
  match old, new with
  | some _, _ => .error .repeated
  | none, some value => .ok (some value)
  | none, none => .error .badValue

def assign (given : Given) (slot : Slot) (text : String) : Except Refusal Given :=
  match slot with
  | .rom =>
    if text.isEmpty then .error .missingValue
    else (once given.rom (some text)).map fun rom => { given with rom }
  | .clockHz => (once given.clockHz (word32? text)).map fun clockHz => { given with clockHz }
  | .seed => (once given.seed (word64? text)).map fun seed => { given with seed }
  | .scale => (once given.scale (word32? text)).map fun scale => { given with scale }

def raise (given : Given) : Flag → Except Refusal Given
  | .help => .error .helpWanted
  | .version => .error .versionWanted
  | .shiftVy => if given.shiftVy then .error .repeated else .ok { given with shiftVy := true }

def arguments (given : Given) : Except Refusal Arguments :=
  match given.rom with
  | some rom => .ok {
      rom
      clockHz := given.clockHz.getD 500
      shiftVy := given.shiftVy
      seed := given.seed
      scale := given.scale.getD 10 }
  | none => .error .missingProgram

end Given

/-- `romSeen` is set once the program file has been named. A slot is pending until its value,
if it has got one, has been judged. After a double dash no argument is an option. -/
structure Reading where
  given : Given := {}
  pending : Option (Slot × Option String) := none
  romSeen : Bool := false
  plain : Bool := false
deriving DecidableEq

namespace Reading

def resolve (r : Reading) : Except Refusal Given :=
  match r.pending with
  | some (slot, some text) => r.given.assign slot text
  | some (_, none) => .error .missingValue
  | none => .ok r.given

def flag (r : Reading) (flag : Flag) : Except Refusal Reading := do
  let given ← r.resolve
  let given ← given.raise flag
  return { r with given, pending := none }

/-- An argument that starts with two dashes: a name, and a value if there is an equals sign. -/
def long (r : Reading) (name : String) (value : Option String) : Except Refusal Reading :=
  match long? name, value with
  | some (.flag f), none => r.flag f
  | some (.flag _), some _ => .error .valueNotTaken
  | some (.slot slot), none => do
    let given ← r.resolve
    return { r with given, pending := some (slot, none) }
  | some (.slot slot), some text => do
    let given ← r.resolve
    let given ← given.assign slot text
    return { r with given, pending := none }
  | none, _ => .error .unknownArgument

def shorts (r : Reading) : List Char → Except Refusal Reading
  | [] => .ok r
  | letter :: rest =>
    match short? letter with
    | some f => do
      let r ← r.flag f
      shorts r rest
    | none => .error .unknownArgument

def positional (r : Reading) (text : String) : Except Refusal Reading :=
  if r.romSeen then .error .unknownArgument
  else do
    let given ← r.resolve
    return { r with given, pending := some (.rom, some text), romSeen := true }

/-- An argument that is not an option: the value of a slot that lacks one, else a file. -/
def value (r : Reading) (text : String) : Except Refusal Reading :=
  match r.pending with
  | some (slot, none) => .ok { r with pending := some (slot, some text) }
  | _ => r.positional text

def argument (r : Reading) (text : String) : Except Refusal Reading :=
  if r.plain then r.positional text
  else
    match text.toList with
    | ['-', '-'] => .ok { r with plain := true }
    | '-' :: '-' :: rest =>
      let name := rest.takeWhile (· != '=')
      let value := match rest.dropWhile (· != '=') with
        | _ :: value => some (String.ofList value)
        | [] => none
      r.long (String.ofList name) value
    | '-' :: letter :: rest => r.shorts (letter :: rest)
    | _ => r.value text

end Reading

/-- Reads the arguments after the program's name. -/
def parse (args : List String) : Except Refusal Arguments := do
  let reading ← args.foldlM Reading.argument {}
  let given ← reading.resolve
  given.arguments

end CommandLine
end ChipEight

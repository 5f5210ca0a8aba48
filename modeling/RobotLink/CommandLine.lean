/-! Options of a command: flags, and options that take a value from the same word or the next.
A value from the next word is read only when another option or the end of the line follows it,
so that an unknown word is reported first. -/
namespace RobotLink.CommandLine

inductive ArgumentError where
  | unknownArgument
  | valueValidation
  | invalidValue
  | argumentConflict
  | tooManyValues
  | displayHelp
  deriving DecidableEq, Repr

def ArgumentError.name : ArgumentError → String
  | .unknownArgument => "UnknownArgument"
  | .valueValidation => "ValueValidation"
  | .invalidValue => "InvalidValue"
  | .argumentConflict => "ArgumentConflict"
  | .tooManyValues => "TooManyValues"
  | .displayHelp => "DisplayHelp"

inductive Effect (Settings : Type) where
  | flag (set : Settings → Settings)
  | value (set : String → Settings → Except ArgumentError Settings)

structure Switch (Settings : Type) where
  name : String
  effect : Effect Settings

structure Pending (Settings : Type) where
  name : String
  set : String → Settings → Except ArgumentError Settings
  value : Option String

structure Progress (Settings : Type) where
  settings : Settings
  given : List String
  pending : Option (Pending Settings)

namespace Progress
variable {Settings : Type}

def take (p : Progress Settings) (name : String)
    (set : Settings → Except ArgumentError Settings) : Except ArgumentError (Progress Settings) :=
  if p.given.contains name then .error .argumentConflict
  else do return { p with settings := ← set p.settings, given := name :: p.given }

def resolve (p : Progress Settings) : Except ArgumentError (Progress Settings) :=
  match p.pending with
  | none => .ok p
  | some ⟨_, _, none⟩ => .error .invalidValue
  | some ⟨name, set, some value⟩ => { p with pending := none }.take name (set value)

def long (switches : List (Switch Settings)) (p : Progress Settings) (word : List Char) :
    Except ArgumentError (Progress Settings) :=
  let name := String.ofList (word.takeWhile (· ≠ '='))
  let value? := match word.dropWhile (· ≠ '=') with
    | [] => none
    | _ :: value => some (String.ofList value)
  if name = "help" then
    match value? with
    | some _ => .error .tooManyValues
    | none => do
      let _ ← p.resolve
      throw .displayHelp
  else
    match switches.find? (·.name = name), value? with
    | none, _ => .error .unknownArgument
    | some ⟨_, .flag _⟩, some _ => .error .tooManyValues
    | some ⟨_, .flag set⟩, none => do (← p.resolve).take name (.ok ∘ set)
    | some ⟨_, .value set⟩, some value => do (← p.resolve).take name (set value)
    | some ⟨_, .value set⟩, none => do return { ← p.resolve with pending := some ⟨name, set, none⟩ }

end Progress

def parseFrom {Settings : Type} (switches : List (Switch Settings)) :
    List String → Progress Settings → Except ArgumentError Settings
  | [], p => do return (← p.resolve).settings
  | word :: rest, p =>
    match word.toList with
    | ['-', '-'] =>
      if rest.isEmpty then do return (← p.resolve).settings else .error .unknownArgument
    | '-' :: '-' :: name => do parseFrom switches rest (← p.long switches name)
    | '-' :: 'h' :: _ => do
      let _ ← p.resolve
      throw .displayHelp
    | '-' :: _ :: _ => .error .unknownArgument
    | _ =>
      match p.pending with
      | some ⟨name, set, none⟩ =>
        parseFrom switches rest { p with pending := some ⟨name, set, some word⟩ }
      | _ => .error .unknownArgument

def parse {Settings : Type} (switches : List (Switch Settings)) (defaults : Settings)
    (words : List String) : Except ArgumentError Settings :=
  parseFrom switches words ⟨defaults, [], none⟩

end RobotLink.CommandLine

import Tabletop.Text.Basic

/-!
Options of a command line. An option is written with two dashes, its value follows it or stands behind
an equals sign, and none is given twice.
-/

namespace Tabletop.Command

/-- Whether an option has a value. -/
inductive OptionKind where
  | value
  | flag
  deriving DecidableEq, Repr

/-- The options that a command knows. -/
abbrev OptionTable := List (String × OptionKind)

/-- The options that were given, with their values. -/
abbrev Given := List (String × String)

/-- Whether an argument cannot be the value of an option before it. -/
def startsOption (argument : String) : Bool :=
  argument != "-" && Text.startsWith ['-'] argument.toList

/-- An option's name and what stands behind the equals sign, if there is one. -/
def splitOption (argument : String) : Option (String × Option String) :=
  match argument.toList with
  | '-' :: '-' :: text =>
    let (name, rest) := text.span (· != '=')
    some (String.ofList name, match rest with
      | _ :: value => some (String.ofList value)
      | [] => none)
  | _ => none

/-- Adds an option that was not given before. -/
def addOption (given : Given) (name value : String) : Option Given :=
  if (given.lookup name).isSome then none else some (given ++ [(name, value)])

/-- Reads options up to the end; two dashes alone may close them. -/
def readOptions (table : OptionTable) (given : Given) : List String → Option Given
  | [] => some given
  | ["--"] => some given
  | argument :: rest =>
    match splitOption argument with
    | none => none
    | some (name, inline) => match table.lookup name, inline with
      | none, _ => none
      | some .flag, some _ => none
      | some .flag, none => match addOption given name "" with
        | some given => readOptions table given rest
        | none => none
      | some .value, some value => match addOption given name value with
        | some given => readOptions table given rest
        | none => none
      | some .value, none => match rest with
        | [] => none
        | value :: rest =>
          if startsOption value then none
          else match addOption given name value with
            | some given => readOptions table given rest
            | none => none

namespace Given

/-- Reads the value of an option that has to be given. -/
def required {α : Type} (given : Given) (name : String) (read : String → Option α) : Option α :=
  match given.lookup name with
  | some value => read value
  | none => none

/-- Reads the value of an option that may be left out. -/
def optional {α : Type} (given : Given) (name : String) (read : String → Option α) :
    Option (Option α) :=
  match given.lookup name with
  | some value => (read value).map some
  | none => some none

/-- Reads the value of an option that has a default. -/
def withDefault {α : Type} (given : Given) (name : String) (default : α)
    (read : String → Option α) : Option α :=
  match given.lookup name with
  | some value => read value
  | none => some default

def flag (given : Given) (name : String) : Bool := (given.lookup name).isSome

end Given
end Tabletop.Command

import Tabletop.Board.DropGame
import Tabletop.Board.SowingGame
import Tabletop.Board.ThreeInARow
import Tabletop.Command.Basic
import Tabletop.Command.Output
import Tabletop.Scoring.Run

/-!
Commands about scoring programs and payloads.
-/

namespace Tabletop.Command

/-- The opening position of a game as scoring programs see it. -/
def openingView : GameKind → Json
  | .threeInARow => Rules.view ThreeInARow.opening
  | .dropGame => Rules.view DropGame.opening
  | .sowingGame => Rules.view SowingGame.opening

/-- The board that a program is run on: the one given, else the opening position. -/
def boardFor (options : CompileOptions) : Except Failure Json :=
  match options.board with
  | none => .ok (openingView options.game)
  | some text => match Json.read? text with
    | some board => .ok board
    | none => .error ⟨"--board is not valid JSON", some "<library>"⟩

/-- Runs a program on a board; its console lines are told, and its payload is shown in normal form. -/
def compileProgram (settings : Scoring.Settings) (source : String) (board : Json) : Output :=
  match Scoring.run settings source board with
  | .error failure => finish {} (some ⟨failure.message, none⟩)
  | .ok outcome =>
    let written := outcome.trace.foldl
      (fun (written : Written) line => written.complainLine s!"console: {line}") {}
    match outcome.payload.normalize with
    | .error problem => finish written (some ⟨problem.message, none⟩)
    | .ok payload => finish (written.printLine payload.shownText) none

def compile (files : Files) (options : CompileOptions) : Output :=
  match files.demand "program" options.program with
  | .error failure => finish {} (some failure)
  | .ok source => match files.settings options.settings with
    | .error failure => finish {} (some failure)
    | .ok settings => match boardFor options with
      | .error failure => finish {} (some failure)
      | .ok board => compileProgram settings.scoring source board

/-- Whether a program can be read and has its entry function. -/
def checkProgram (options : CheckOptions) (source : String) : Output :=
  match Script.Program.read source with
  | .error error => finish {} (some ⟨s!"parsing {options.program}", some error.message⟩)
  | .ok program => match program.function? options.entry with
    | none => finish {} (some ⟨s!"function '{options.entry}' not found in {options.program}", none⟩)
    | some definition =>
      let params := Text.joined ", " definition.params
      finish (Written.printLine {} s!"ok: {options.entry}({params}) found") none

def check (files : Files) (options : CheckOptions) : Output :=
  match files.demand "program" options.program with
  | .error failure => finish {} (some failure)
  | .ok source => checkProgram options source

/-- Shows the normal form of a payload's text. -/
def validate (files : Files) (path : String) : Output :=
  match files.demand "payload" path with
  | .error failure => finish {} (some failure)
  | .ok text => match Payload.normalizeText text with
    | .error problem => finish {} (some ⟨s!"validating {path}", some problem.message⟩)
    | .ok payload => finish (Written.printLine {} payload.shownText) none

end Tabletop.Command

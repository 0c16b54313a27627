import Tabletop.Command.Run

/-!
The program: it reads the files that a command names, runs the command, and writes its output. A
series is played step by step, so that a person is answered at once.
-/

namespace Tabletop.Command

/-- The files that can be read. -/
def readFiles (paths : List String) : IO Files := do
  let texts ← paths.filterMapM fun (path : String) => do
    try
      let text ← IO.FS.readFile path
      return some (path, text)
    catch _ => return none
  return .ofTexts texts

def write (written : Written) : IO Unit := do
  let stdout ← IO.getStdout
  let stderr ← IO.getStderr
  stdout.putStr written.out
  stdout.flush
  stderr.putStr written.err
  stderr.flush

def writeOutput (output : Output) : IO UInt32 := do
  write output.written
  return output.code.toUInt32

/-- What stands in the place of a saved file. -/
def findSaved (place : SavePlace) : IO SaveFile := do
  try
    let text ← IO.FS.readFile place.path
    return .text text
  catch
    | .noFileOrDirectory .. => return .absent
    | .inappropriateType .. => return .blocked
    | _ => return .unusable

/-- Writes or removes a saved file that has changed. -/
def keepSaved (place : Option SavePlace) (before after : SaveFile) : IO Unit :=
  match place with
  | none => return ()
  | some place =>
    if before = after then return ()
    else match after with
      | .text text => do
        if place.directory != "" then IO.FS.createDirAll place.directory
        IO.FS.writeFile place.path text
      | .absent => IO.FS.removeFile place.path
      | .unusable | .blocked => return ()

section
variable {Board : Type} [StrongPlay Board]

/-- Waits before a turn that is not a person's. -/
def pause (m : Match Board) : IO Unit :=
  if m.phase = .playing ∧ m.moverSource ≠ .human then IO.sleep m.settings.moveDelay.toUInt32
  else return ()

/-- Plays a series to its end. -/
partial def playLoop (place : Option SavePlace) (file : SaveFile) (p : Playing Board)
    (next : Next) : IO UInt32 := do
  write p.written
  keepSaved place file p.file
  let p := { p with written := {} }
  match next with
  | .goOn =>
    pause p.game
    let (after, next) := p.step Solver.unreachable
    playLoop place p.file after next
  | .listen =>
    let stdin ← IO.getStdin
    let line ← stdin.getLine
    let (after, next) := p.hear (Text.lines line).head?
    playLoop place p.file after next
  | .stop failure => writeOutput (finish {} failure)

end

def playSeries (Board : Type) [StrongPlay Board] (options : PlayOptions) (settings : MatchSettings)
    (program : String) : IO UInt32 := do
  let place := playPlace? options settings
  let file ← match place with
    | some place => findSaved place
    | none => pure .absent
  let started : Playing Board × Next := Playing.start options settings program file
  playLoop place file started.1 started.2

def playCommand (files : Files) (options : PlayOptions) : IO UInt32 := do
  match playSettings files options with
  | .error failure => writeOutput (finish {} (some failure))
  | .ok settings => match playProgram files options with
    | .error failure => writeOutput (finish {} (some failure))
    | .ok program => match options.game with
      | .threeInARow => playSeries ThreeInARow options settings program
      | .dropGame => playSeries DropGame options settings program
      | .sowingGame => playSeries SowingGame options settings program

def runCommand (arguments : List String) : IO UInt32 := do
  match Invocation.read? arguments with
  | some (.play options) =>
    let files ← readFiles (Invocation.play options).paths
    playCommand files options
  | other =>
    let files ← readFiles ((other.map Invocation.paths).getD [])
    match runArguments Solver.unreachable 0 [] files arguments with
    | some (output, _) => writeOutput output
    | none => return 1

end Tabletop.Command

def main (arguments : List String) : IO UInt32 := Tabletop.Command.runCommand arguments

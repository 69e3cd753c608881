import EnvAudit.CommandLine.Run
import EnvAudit.FileSystem.Contents
import EnvAudit.Libraries

/-!
# The program

Takes a picture of the files that a command can come upon, runs the command on it and writes back
what has changed.
-/

namespace EnvAudit.Main

open scoped Libraries

/-- The deepest nesting of directories that is looked into. -/
def depthLimit : Nat := 256

/-- The number of answers after which no more questions are asked. -/
def answerLimit : Nat := 1000

/-- The picture of what an entry of a directory stands for. -/
def picture : (depth : Nat) → IO.FS.DirEntry → IO Node
  | 0, _ => return .dir []
  | depth + 1, entry => do
    match (← entry.path.symlinkMetadata).type with
    | .symlink => return .link (← IO.FS.realPath entry.path).toString
    | .dir =>
      let entries ← entry.path.readDir
      return .dir (← entries.toList.mapM fun e => return (e.fileName, ← picture depth e))
    | _ => try return .file (← IO.FS.readBinFile entry.path) catch _ => return .locked

def namesOf (path : String) : List String := (FileSystem.steps path).filter (· != "")

/-- The spelling of the place at the end of a list of names. -/
def spelling (names : List String) : String := "/" ++ "/".intercalate names

/-- Adds the picture of a path to a file system, if something stands there.  A spelling that leads
through links becomes a link. -/
def take (fs : FileSystem) (path : Path) : IO FileSystem := do
  let spelled := namesOf (({ root := .slash, parts := fs.cwd } : Path) / path).normalized.toString
  try
    let real ← IO.FS.realPath path.toString
    let node ← picture depthLimit
      { root := real.parent.getD real, fileName := real.fileName.getD "" }
    let names := namesOf real.toString
    let root := node.put names fs.root
    if names = spelled || (root.at? spelled).isSome then return { fs with root }
    else return { fs with root := Node.put (.link real.toString) spelled root }
  catch _ => return fs

/-- Adds what a link leads to, of a directory no more than that it is there. -/
def takeTarget (fs : FileSystem) (target : String) : IO FileSystem := do
  let names := namesOf target
  if (fs.root.at? names).isSome then return fs
  else
    try
      let real ← IO.FS.realPath target
      match (← real.metadata).type with
      | .dir => return { fs with root := Node.put (.dir []) names fs.root }
      | _ =>
        let file : Node ← try pure (.file (← IO.FS.readBinFile real)) catch _ => pure .locked
        return { fs with root := Node.put file names fs.root }
    catch _ => return fs

/-- Adds the configuration for a path and the rule files that it names. -/
def takeConfig (fs : FileSystem) (path : Path) : IO FileSystem := do
  match Settings.projectOf fs path with
  | .error _ => return fs
  | .ok project =>
    let fs ← (Settings.candidates project fs.cwdPath).foldlM take fs
    let (settings, _) := (Settings.load {} fs path).value
    (settings.config.ruleFiles.map (settings.config.rulePath none)).foldlM take fs

/-- The picture of all that a command can come upon: what is below the working directory and at the
paths among its arguments, and the configuration for these. -/
def pictureFor (args : List String) : IO FileSystem := do
  let here ← IO.FS.realPath (← IO.currentDir)
  let paths := ⟨.here, []⟩ :: args.map Path.ofString
  let fs ← paths.foldlM take { cwd := namesOf here.toString }
  let fs ← paths.foldlM takeConfig fs
  fs.root.linkTargets.foldlM takeTarget fs

/-- The width of the terminal, which the environment may tell. -/
def terminalWidth : IO Nat := do
  match (← IO.getEnv "COLUMNS").bind String.toNat? with
  | some columns => return columns
  | none => return Libraries.defaultWidth

/-- Runs a command.  Whenever it waits for an answer, one more line of input is read; `shown` counts
the characters that are printed already. -/
def converse [Terminal.Console] (args : List String) (fs : FileSystem) : (rounds : Nat) → (shown : Nat) →
    (input : List String) → IO CommandLine.Ending
  | 0, _, input => return CommandLine.run args input fs
  | rounds + 1, shown, input => do
    let ending := CommandLine.run args input fs
    IO.print (ending.output.toList.drop shown |> String.ofList)
    (← IO.getStdout).flush
    match ending.error with
    | some (.failure .aborted) =>
      let line ← (← IO.getStdin).getLine
      if line.isEmpty then return ending
      else
        let line := (line.dropEndWhile (· == '\n')).toString
        converse args fs rounds (ending.output.length + line.length + 1) (input ++ [line])
    | _ => return ending

def perform (args : List String) : IO UInt32 := do
  let before ← pictureFor args
  let _ : Terminal.Console := Terminal.screen (← terminalWidth) .none
  let ending ← converse args before answerLimit 0 []
  for record in ending.log do IO.eprintln record.message
  for (names, bytes) in before.root.changedFiles ending.fs.root do
    IO.FS.writeBinFile (spelling names) bytes
  match ending.error with
  | some cause => IO.eprintln cause.message
  | none => pure ()
  return ending.exitCode.toUInt32

end EnvAudit.Main

def main (args : List String) : IO UInt32 := EnvAudit.Main.perform args

import IdlBindings.CommandLine

/-!
# The program

The command line on the files of the machine.
-/
namespace IdlBindings

/-- The fault of a failed operation. -/
def faultOfError : IO.Error → AccessFault
  | .noFileOrDirectory _ _ _ => .notFound
  | error => .other (toString error)

/-- An operation on a path, whose failure is a result. -/
def attempt {α : Type} (path : Path) (operation : String → IO α) : IO (Except AccessFault α) := do
  if path.text.toList.contains '\x00' then return .error .nulInName
  try return .ok (← operation path.text)
  catch error => return .error (faultOfError error)

/-- The files of the machine. -/
def machineDisk : Disk IO where
  read path := attempt path fun file => IO.FS.readBinFile file
  makeDirs path := attempt path fun dir => IO.FS.createDirAll dir
  write path content := attempt path fun file => IO.FS.writeBinFile file content

def printLines (lines : List String) : IO Unit := lines.forM fun line => IO.println line

/-- Prints why a run failed. -/
def printFailure (error : CompileError) : IO Unit := do
  IO.eprintln ("Error: " ++ error.code)
  IO.eprintln ("  " ++ error.message)
  if let some help := error.help? then
    IO.eprintln ("  help: " ++ help)

/-- Performs one run and prints its report. -/
def performOnce (mode : Mode) (config : Config) : IO UInt32 := do
  let start ← IO.monoMsNow
  let result ← (mode.perform machineDisk config).run
  if let .error error := result then
    printFailure error
  let outcome := Outcome.ofResult mode (toString ((← IO.monoMsNow) - start)) result
  printLines outcome.lines
  return outcome.exitCode.toUInt32

/-- Runs again whenever the document is another than before. -/
partial def watchFrom (config : Config) (before : Option ByteArray) : IO Unit := do
  IO.sleep 500
  let now := (← machineDisk.read config.input).toOption
  if now != before then
    let _ ← performOnce .watch config
  watchFrom config now

end IdlBindings

open IdlBindings in
def main (args : List String) : IO UInt32 := do
  match Request.ofList args with
  | .error stop =>
    if let .fault fault := stop then
      IO.eprintln ("error: " ++ fault.message)
    let outcome := Outcome.ofStop stop
    printLines outcome.lines
    return outcome.exitCode.toUInt32
  | .ok .includeDir =>
    IO.println (toString (← IO.appDir))
    return 0
  | .ok (.run mode config) =>
    let before := (← machineDisk.read config.input).toOption
    let exitCode ← performOnce mode config
    if mode = .watch then
      printLines ["", infoLine ("Watching " ++ config.input.text ++ " for changes")]
      watchFrom config before
    return exitCode

import Tapewright.CommandLine.Run

open Tapewright CommandLine

/-- The environment variable that replaces the verbosity in the log filter. -/
def logVariable : String := "RUST_LOG"

partial def readAll (stream : IO.FS.Stream) (read : ByteArray) : IO ByteArray := do
  let chunk ← stream.read 65536
  if chunk.isEmpty then
    return read
  readAll stream (read ++ chunk)

/-- The fault of a system error by its number, which may come negated. -/
def faultOfCode (code : UInt32) (details : String) : Fault :=
  match min code.toNat (0 - code).toNat with
  | 2 => .noSuchFile
  | 20 => .notDirectory
  | 21 => .isDirectory
  | 36 => .nameTooLong
  | _ => ⟨.other, details⟩

def readPath (path : String) : IO (Except Fault (Option (List UInt8))) := do
  try
    return .ok (some (← IO.FS.readBinFile path).toList)
  catch
    | .noFileOrDirectory .. => return .error .noSuchFile
    | .inappropriateType _ code details => return .error (faultOfCode code details)
    | .invalidArgument _ code details => return .error (faultOfCode code details)
    | error => return .error ⟨.other, toString error⟩

def surroundingsOf (options : Options) : IO Surroundings := do
  let source ← readPath options.file
  let input ← options.input.mapM readPath
  let standardInput ←
    if options.input.isSome || options.dumpOps || options.emitC then pure ByteArray.empty
    else readAll (← IO.getStdin) .empty
  return {
    readFile := fun path =>
      if some path = options.input then input.getD (.error .noSuchFile)
      else if path = options.file then source
      else .error .noSuchFile
    standardInput := standardInput.toList
    logSetting := ← IO.getEnv logVariable }

def main (words : List String) : IO UInt32 := do
  let surroundings ←
    match CommandLine.parse words with
    | .ok options => surroundingsOf options
    | .error _ => pure ⟨fun _ => .error .noSuchFile, .ofBytes [], none⟩
  match CommandLine.run 1000000000000000000 surroundings words with
  | none => return 1
  | some (.refused complaint) =>
      IO.eprintln (complaint ++ "\n\n" ++ usageText ++ "\n\nFor more information, try '--help'.")
      return UInt32.ofNat ExitCode.usage
  | some (.ran code printed log) =>
      let output ← IO.getStdout
      output.write printed.toByteArray
      output.flush
      for line in log do
        IO.eprintln line
      return UInt32.ofNat code

import HtmlFragments.Inputs.Utf8
import HtmlFragments.Run
import Std.Time.Format

/-! # The program

Reads the inputs that the run will load, then prints what the run gives. -/
set_option autoImplicit false

namespace HtmlFragments.Program

def programName : Text := Text.ofString "html-search"

/-- A path that cannot be opened as a file is left out, and a file that cannot be read is kept
without contents. -/
def readFile (path : Text) : IO (List (Text × Option Text)) := do
  try
    let bytes ← IO.FS.readBinFile path.toString
    return [(path, some (Utf8.decode bytes.toList))]
  catch
    | .noFileOrDirectory .. => return []
    | .inappropriateType .. => return []
    | _ => return [(path, none)]

def readFiles : List Text → IO (List (Text × Option Text))
  | [] => return []
  | path :: rest => do
    let file ← readFile path
    if file.isEmpty then return [] else return file ++ (← readFiles rest)

def readStandardInput : IO Text := do
  return Utf8.decode (← (← IO.getStdin).readBinToEnd).toList

def readStorage : Option Inputs → IO Storage
  | none => return .ofFiles [] []
  | some .standardInput => return .ofFiles [] (← readStandardInput)
  | some (.files paths) => return .ofFiles (← readFiles paths) []

def readEnvironment : IO (List (Text × Text)) := do
  match ← IO.getEnv Threshold.variableName.toString with
  | some value => return [(Threshold.variableName, Text.ofString value)]
  | none => return []

def timeOfDay : IO Text := do
  return Text.ofString ((← Std.Time.PlainDateTime.now).format "HH:mm:ss.SSS")

end HtmlFragments.Program

open HtmlFragments in
def main (arguments : List String) : IO UInt32 := do
  let arguments := arguments.map Text.ofString
  let surroundings : Surroundings := {
    storage := ← Program.readStorage (Run.inputs? arguments)
    environment := ← Program.readEnvironment
    colouredOutput := ← (← IO.getStdout).isTty
    colouredErrors := ← (← IO.getStderr).isTty }
  match Run.run Program.programName arguments surroundings with
  | .error fault =>
    IO.eprintln fault.message.toString
    return 1
  | .ok outcome =>
    for line in outcome.logLines (← Program.timeOfDay) do
      IO.eprint line.toString
    IO.print outcome.output.toString
    IO.eprint outcome.errors.toString
    return outcome.exitCode.toUInt32

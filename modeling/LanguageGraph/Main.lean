/-
# Main — the program

The one argument, if given, is the path of a YAML document of settings. The author is the user of the
environment. The program prints its report, and a failure on the error stream; it ends with 1 after a
failure and with 0 otherwise.
-/
import LanguageGraph.Report
import Std.Time.DateTime

namespace LanguageGraph

set_option autoImplicit false

/-- What stands at a path. -/
def sourceAt (path : String) : IO Config.Source := do
  try
    return .file (← IO.FS.readBinFile path)
  catch
    | .inappropriateType .. => return .directory
    | _ => return .missing

def randomId : IO ElementId := do
  let bytes ← IO.getRandomBytes 16
  let number := bytes.foldl (fun number byte => number * 256 + byte.toNat) 0
  return .ofRandom (BitVec.ofNat 128 number)

def currentTime : IO Timestamp := do
  let now ← Std.Time.Timestamp.now
  let shown := Std.Time.PlainDateTime.ofWallTime (now.toWallTime Std.Time.TimeZone.Offset.zero)
  let day? := Date.of? shown.date.year.toInt shown.date.month.val.toNat shown.date.day.val.toNat
  let time? := day?.bind fun day =>
    Timestamp.of? day shown.time.hour.val.toNat shown.time.minute.val.toNat
      shown.time.second.val.toNat shown.time.nanosecond.val.toNat
  return time?.getD .epoch

/-- The user of the environment, with a supply of identities and times. -/
def producer : IO StandardLibrary.Producer := do
  let author := (← IO.getEnv "USER").getD Config.default.defaultAuthor
  let ids ← (List.range 14).mapM fun _ => randomId
  let times ← (List.range 16).mapM fun _ => currentTime
  return {
    author
    freshId := fun number => ids.getD number (.ofNat number)
    clock := fun number => ⟨times.getD number .epoch, .listed⟩ }

/-- Load the settings, print the report, and tell how the program ends. -/
def run (arguments : List String) : IO UInt32 := do
  let settings ← match arguments with
    | [] => pure (.ok Config.default)
    | path :: _ => Config.load <$> sourceAt path
  let report := Report.make settings (← producer)
  for line in report.lines do
    IO.println line
  match report.failure with
  | none => return 0
  | some failure =>
      IO.eprintln ("Error: " ++ failure.message)
      return 1

end LanguageGraph

def main (arguments : List String) : IO UInt32 :=
  LanguageGraph.run arguments

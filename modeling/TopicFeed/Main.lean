import TopicFeed.Command.Run

/-!
# The program

Reads its arguments, the environment and the settings file, runs the command and prints what it
leaves. The program has no transport: to it no host is present, and a request ends unanswered.
-/

namespace TopicFeed.Program

/-- What a path leads to. -/
def lookUp (path : String) : IO Settings.Target := do
  try
    return .file (← IO.FS.readBinFile path).toList
  catch
    | .noFileOrDirectory .. => return .missing
    | .inappropriateType .. => return .directory
    | e => throw e

/-- A variable of the environment. -/
def environment (name : String) : IO (Option Bytes) := do
  return (← IO.getEnv name).map Bytes.ofString

/-- Ids for subscriptions, drawn at random. -/
def drawIds : Nat → IO (List SubscriptionId)
  | 0 => return []
  | n + 1 => do
    let id := SubscriptionId.ofRandom (← IO.rand 0 (Nat.pow 16 SubscriptionId.width - 1))
    return id :: (← drawIds n)

/-- The network of the program, where nobody answers. -/
def noNetwork : Network where
  isPresent := fun _ => false
  script := .inOrder []
  beyond := .dropped

/-- Waits until the process is interrupted. -/
partial def waitForever : IO UInt32 := do
  IO.sleep 60000
  waitForever

end TopicFeed.Program

open TopicFeed Program

/-- Runs the program; the result is its exit code. -/
def main (args : List String) : IO UInt32 := do
  match Command.Invocation.ofArgs args with
  | .error stop =>
    stop.shown.forM IO.println
    if stop = .misuse then Command.usage.forM IO.eprintln
    return stop.exitCode
  | .ok invocation =>
    let vars ← Settings.Variables.read environment
    let target ← (vars.path? invocation.settingsFile).mapM lookUp
    let ids ← drawIds 1000
    match invocation.run (fun _ => target.getD .missing) vars noNetwork ids none with
    | .waiting => waitForever
    | .returned outcome =>
      outcome.printed.forM IO.println
      outcome.complaint?.forM IO.eprintln
      return outcome.exitCode

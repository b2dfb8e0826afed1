import MetaCache.Command.Program
import Std.Time.DateTime.Timestamp

/-!
# The command

Takes what it needs from outside, executes the program, and hands over what comes of it. Of the disk
there is only the file with the configuration, and of the web nothing: what is not in a run's own
memory is not found.
-/

namespace MetaCache.Command

open MetaCache.Store

/-- The clock and chance as they are now. -/
def takeOutside : IO Outside := do
  let nanos := (← Std.Time.Timestamp.now).toNanosecondsSinceUnixEpoch.val
  let bytes ← IO.getRandomBytes 8
  return {
    now := (Instant.ofNanos? nanos).getD .last
    draw := bytes.toList.foldl (fun draw byte => draw * 256 + byte.toUInt64) 0
    web := .silent }

/-- A disk with one file on it. A file that cannot be read is as good as none. -/
def takeDisk (path : String) : IO Disk := do
  try
    return Disk.empty.write path (← IO.FS.readFile path)
  catch _ => return .empty

/-- The disk with the configuration that arguments and environment lead to, if they do. -/
def takeDiskFor (line : List String) (e : Environment) : IO Disk :=
  match Arguments.parse line with
  | .error _ => return .empty
  | .ok a =>
    match a.configPath e.config with
    | .error _ => return .empty
    | .ok path => takeDisk path

/-- Hands over the log, the output, and any complaint. -/
def Execution.emit (x : Execution) : IO Unit := do
  for event in x.events do
    IO.eprintln (if x.jsonLog then String.ofList event.toValue.write else event.line)
  IO.print x.output
  if let some complaint := x.complaint then IO.eprintln complaint

end MetaCache.Command

open MetaCache.Command

def main (line : List String) : IO UInt32 := do
  let environment : Environment :=
    ⟨← IO.getEnv "APPMETA_CONFIG", ← IO.getEnv "RUST_LOG"⟩
  let disk ← takeDiskFor line environment
  let moment ← takeOutside
  let x := execute line environment disk fun _ => moment
  x.emit
  return x.exit.toUInt32

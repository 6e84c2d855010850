import Rollup.Command
import Rollup.Schedule
import Std.Time.DateTime.Timestamp

/-!
The program. It hands arguments, variables, files and standard input to the library, and writes
what comes out.
-/
namespace Rollup.Program

def describe : IO.Error → String
  | .noFileOrDirectory _ code _ => "No such file or directory" ++ numbered code
  | .permissionDenied _ code _ => "Permission denied" ++ numbered code
  | .alreadyExists _ code _ => "File exists" ++ numbered code
  | .inappropriateType _ code _ =>
    (if code == 21 then "Is a directory" else "Not a directory") ++ numbered code
  | e => toString e
where
  /-- Some codes come negated. -/
  numbered (code : UInt32) : String := " (os error " ++ toString (min code (0 - code)) ++ ")"

def attempt (act : IO α) : BaseIO (Except String α) := do
  return (← act.toBaseIO).mapError describe

def nowMs : IO Nat := do
  return (← Std.Time.Timestamp.now).toMillisecondsSinceUnixEpoch.val.toNat

def readFolder (folder : String) : BaseIO FolderState := do
  let file ← attempt do return (← IO.FS.readBinFile (Configuration.filePath folder)).toList
  return { isThere := (← attempt (IO.FS.realPath folder)).isOk, file := file }

def writeConfiguration (c : Configuration) : BaseIO (Except String Unit) :=
  attempt do
    IO.FS.createDirAll c.folder
    IO.FS.writeFile (Configuration.filePath c.folder) c.toYaml

def say (text : String) : IO Unit := do
  let out ← IO.getStdout
  out.putStr text
  out.flush

def log (lines : List String) : IO Unit := lines.forM IO.eprintln

def leave (o : Outcome) : IO UInt32 := do
  log o.errors
  say o.output
  return o.code.toUInt32

inductive Arrival
  | fill (bytes : List UInt8)
  | finished (fault : Option String)

def Arrival.fill? : Arrival → Option (List UInt8)
  | .fill bytes => some bytes
  | .finished _ => none

/-- What has come and was not yet taken, newest first. -/
abbrev Inbox := IO.Ref (List Arrival)

/-- Reads to the end of a line, if that is near. A read waits for all bytes that it wants, so each
one is read by itself. -/
partial def readFill (input : IO.FS.Stream) (bytes : ByteArray) : IO ByteArray := do
  let next ← input.read 1
  let bytes := bytes ++ next
  if next.isEmpty || next.toList == [Intake.newline] || 8192 ≤ bytes.size then return bytes
  else readFill input bytes

partial def receive (input : IO.FS.Stream) (inbox : Inbox) : IO Unit := do
  match ← attempt (readFill input .empty) with
  | .error fault => inbox.modify (.finished (some fault) :: ·)
  | .ok bytes =>
    if bytes.isEmpty then inbox.modify (.finished none :: ·)
    else
      inbox.modify (.fill bytes.toList :: ·)
      receive input inbox

def tickIfDue (now : Nat) (schedule : Schedule) (e : Engine) : IO (Schedule × Engine) := do
  if !schedule.isDue now then return (schedule, e)
  let (tick, schedule) := schedule.fire
  let (sent, e) := (e.tick tick fun _ => 0).drain
  say (String.join sent.toList)
  return (schedule.skip (schedule.missed now), e)

partial def follow (filter : LogFilter) (inbox : Inbox) (schedule : Option Schedule)
    (s : StreamState) : IO (Option String × StreamReport × Engine) := do
  let arrivals := (← inbox.modifyGet fun arrivals => (arrivals, [])).reverse
  let before := s.report.overlong
  let s := (arrivals.filterMap Arrival.fill?).foldl StreamState.absorb s
  log (filter.lines (List.replicate (s.report.overlong - before) Intake.overlongNotice))
  if let some (.finished fault) := arrivals.getLast? then return (fault, s.finish)
  if arrivals.isEmpty then IO.sleep 1
  match schedule with
  | none => follow filter inbox none s
  | some schedule =>
    let (schedule, e) ← tickIfDue (← nowMs) schedule s.engine
    follow filter inbox (some schedule) { s with engine := e }

def aggregate (filter : LogFilter) (once : Bool) (c : Configuration) : IO UInt32 := do
  let (logged, engine) := c.launch filter
  match engine with
  | .error e => leave (.fail filter logged e)
  | .ok e =>
    log logged
    let schedule ←
      if once then pure none
      else
        log (filter.lines [e.startedNotice])
        let now ← nowMs
        pure (some (Schedule.start c.engine.periodMs c.engine.offsetMs c.engine.sync now))
    let inbox ← IO.mkRef []
    let _ ← IO.asTask (receive (← IO.getStdin) inbox) .dedicated
    let (fault, report, e) ← follow filter inbox schedule (.start e)
    log (filter.lines (if once then [] else closingNotices))
    say (e.reportAll (← nowMs))
    match fault with
    | some fault => leave (.fail filter [] ⟨"failed to read input", [fault]⟩)
    | none =>
      log (filter.lines [report.counts.notice])
      return 0

def execute (i : Invocation) (directives : Option String) : IO UInt32 := do
  let folder ← readFolder i.folder
  match i.action with
  | .init overwrite => match i.initial overwrite folder with
    | .error e => leave (.fail none [] e)
    | .ok c => leave (c.reportWritten directives (← writeConfiguration c))
  | .run once => match Configuration.effective i folder with
    | .error e => leave (.fail none [] e)
    | .ok c => aggregate (c.filter directives) once c
  | _ => leave (i.execute directives folder [] 0)

end Rollup.Program

open Rollup in
def main (args : List String) : IO UInt32 := do
  let names := directivesVariable :: OptionName.envNames
  let found ← names.filterMapM fun name => do return (← IO.getEnv name).map (name, ·)
  let env (name : String) : Option String := found.lookup name
  match Request.ofArguments env args with
  | .invoke i => Program.execute i (env directivesVariable)
  | request =>
    let nowhere : FolderState := { isThere := false, file := .error "" }
    Program.leave (request.execute none nowhere [] 0)

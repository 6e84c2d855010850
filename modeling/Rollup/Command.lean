import Rollup.Command.Arguments
import Rollup.Configuration.Inspection
import Rollup.Configuration.Schema
import Rollup.Engine.Notices
import Rollup.Engine.Session
import Rollup.Engine.Stream
import Rollup.Log.Filter

/-!
What the program does when it is asked for something: what it prints, logs and writes.
-/
namespace Rollup

structure FolderState where
  isThere : Bool
  /-- The bytes of the configuration file, or why they cannot be had. -/
  file : Except String (List UInt8)
  /-- What comes of writing the file, if it is written. -/
  writing : Except String Unit := .ok ()

structure Outcome where
  code : Nat
  output : String
  errors : List String
  /-- The text of the configuration file, if it is to be written. -/
  written : Option String

namespace Outcome

def print (text : String) : Outcome := { code := 0, output := text, errors := [], written := none }

def fail (filter : Option LogFilter) (logged : List String) (e : Explained) : Outcome :=
  let shown := match filter with
    | some filter =>
      if filter.shows (.ofError e) then (Notice.ofError e).text else "error: " ++ e.text
    | none => "error: " ++ e.text
  { code := 1, output := "", errors := logged ++ [shown], written := none }

end Outcome

def invalidEngine (e : ConfigError) : Explained := .because "invalid engine configuration" e.explain

/-- Loads the configuration of a folder. The folder that is used when none was named may be
missing. -/
def Configuration.load (i : Invocation) (folder : FolderState) : Except Explained Configuration :=
  if !i.folderGiven && !folder.isThere then .ok { folder := i.folder }
  else
    let place := TroublePlace.file (Configuration.filePath i.folder)
    let loaded := match folder.file with
      | .ok bytes => Configuration.ofBytes place i.folder bytes
      | .error cause => .error ⟨.couldNotOpen, place, ⟨cause, []⟩⟩
    loaded.mapError fun e => .because ("failed to load config from " ++ i.folder) e.explain

def Configuration.effective (i : Invocation) (folder : FolderState) :
    Except Explained Configuration := do
  let c ← Configuration.load i folder
  match c.override i.overrides with
  | (.ok (), c) => return c
  | (.error e, _) => throw e.explain

/-- Directives from the environment come before the configured level. -/
def Configuration.filter (directives : Option String) (c : Configuration) : LogFilter :=
  match directives with
  | some text => .ofText text
  | none => .atLevel c.logging.level

def Configuration.launchNotices (c : Configuration) : List Notice :=
  let say (message : String) : Notice := ⟨.info, "tally::setup", message, []⟩
  let kinds := Kind.all.map fun kind =>
    let s := c.engine.kindSettings kind
    say ("  " ++ kind.name ++ ": " ++
      if s.enable then toString s.threads ++ " threads, " ++ toString s.tableSize ++ " buckets"
      else "disabled")
  let synthetics := c.engine.synthetics.countP (·.enable)
  [say ("launching tally from config folder " ++ c.folder),
    say ("  log level: " ++ c.logging.level.name),
    say ("  period: " ++ toString c.engine.periodMs ++ "ms"),
    say ("  dialect: " ++ c.engine.dialect.label)] ++ kinds ++
    if synthetics = 0 then [] else [say ("  synthetics: " ++ toString synthetics)]

/-- Why a text names no collector: it has no colon, or no small number behind the last one. -/
def addressFault? (host : String) : Option String :=
  match host.toList.reverse.dropWhile (· != ':') with
  | [] => some "invalid socket address"
  | _ :: _ =>
    let number := (host.toList.reverse.takeWhile (· != ':')).reverse
    match readNat 65535 number with
    | .ok _ => none
    | .error _ => some "invalid port value"

def Configuration.metricsNotices (c : Configuration) : List Notice × Option Explained :=
  match c.metrics.statsd with
  | none => ([], none)
  | some host =>
    ([⟨.info, "tally_statsd", "reporting metrics to statsd at " ++ host, []⟩],
      (addressFault? host).map fun fault => ⟨fault, [fault]⟩)

def Intake.overlongNotice : Notice :=
  ⟨.warn, "tally::ingest", "input line exceeds the maximum length, discarding it",
    [("limit", .nat Intake.maxLine)]⟩

def StreamReport.notices (r : StreamReport) : List Notice :=
  List.replicate r.overlong Intake.overlongNotice

def IngestCounts.notice (c : IngestCounts) : Notice :=
  ⟨.info, "tally::cli", "ingestion finished",
    [("accepted", .nat c.accepted), ("rejected", .nat c.rejected)]⟩

def closingNotices : List Notice :=
  [⟨.info, "tally::cli", "input closed, shutting down", []⟩, Engine.stoppedNotice]

def Configuration.launch (filter : LogFilter) (c : Configuration) :
    List String × Except Explained Engine :=
  let (metrics, fault) := c.metricsNotices
  let launched := filter.lines (c.launchNotices ++ metrics)
  match fault with
  | some e => (launched, .error e)
  | none =>
    (launched ++ filter.lines (Engine.buildNotices c.engine),
      (Engine.ofConfig c.engine).mapError invalidEngine)

def Engine.reportAll (nowMs : Nat) (e : Engine) : String :=
  String.join (e.tick nowMs fun _ => 0).drain.1.toList

def Configuration.aggregate (filter : LogFilter) (once : Bool) (stream : List (List UInt8))
    (nowMs : Nat) (c : Configuration) : Outcome :=
  match c.launch filter with
  | (logged, .error e) => .fail filter logged e
  | (logged, .ok e) =>
    let session := Session.start e
    let (report, e) := e.ingestStream stream
    let e := if once then e else { session with engine := e }.shutdown
    let heard :=
      if once then report.notices else [e.startedNotice] ++ report.notices ++ closingNotices
    { code := 0
      output := e.reportAll nowMs
      errors := logged ++ filter.lines (heard ++ [report.counts.notice])
      written := none }

def Configuration.check (filter : LogFilter) (quiet : Bool) (c : Configuration) : Outcome :=
  let logged := filter.lines (Engine.buildNotices c.engine)
  match Engine.ofConfig c.engine with
  | .error e => .fail filter logged (invalidEngine e)
  | .ok e =>
    let text := "config at " ++ c.folder ++ " is valid (" ++ toString e.synthetics.length ++
      " synthetics)\n"
    { code := 0, output := if quiet then "" else text, errors := logged, written := none }

def Configuration.shown (format : ShowFormat) (c : Configuration) : String :=
  match format with
  | .debug => c.inspect.pretty ++ "\n"
  | .yaml => c.toYaml

def Invocation.initial (i : Invocation) (overwrite : Bool) (folder : FolderState) :
    Except Explained Configuration :=
  if folder.file.isOk && !overwrite then
    .error ⟨"a config already exists in " ++ i.folder ++ ", pass --overwrite to replace it", []⟩
  else match Configuration.override i.overrides { folder := i.folder } with
    | (.ok (), c) => .ok c
    | (.error e, _) => .error e.explain

def Configuration.reportWritten (directives : Option String) (result : Except String Unit)
    (c : Configuration) : Outcome :=
  match result with
  | .ok () =>
    let notice : Notice := ⟨.info, "tally::cli", "wrote config to " ++ c.folder, []⟩
    { code := 0, output := "", errors := (c.filter directives).lines [notice],
      written := some c.toYaml }
  | .error cause =>
    let place := TroublePlace.file (Configuration.filePath c.folder)
    .fail none [] (ConfigurationError.explain ⟨.couldNotWrite, place, ⟨cause, []⟩⟩)

def Invocation.init (i : Invocation) (overwrite : Bool) (directives : Option String)
    (folder : FolderState) : Outcome :=
  match i.initial overwrite folder with
  | .error e => .fail none [] e
  | .ok c => c.reportWritten directives folder.writing

def programVersion : String := "0.4.0"

def about : String := "Tally aggregates statsd and graphite style metrics."

def Invocation.execute (i : Invocation) (directives : Option String) (folder : FolderState)
    (stream : List (List UInt8)) (nowMs : Nat) : Outcome :=
  match i.action with
  | .init overwrite => i.init overwrite directives folder
  | action => match Configuration.effective i folder with
    | .error e => .fail none [] e
    | .ok c =>
      let filter := c.filter directives
      match action with
      | .run once => c.aggregate filter once stream nowMs
      | .check quiet => c.check filter quiet
      | .show format => .print (c.shown format)
      | .init overwrite => i.init overwrite directives folder

def Request.execute (r : Request) (directives : Option String) (folder : FolderState)
    (stream : List (List UInt8)) (nowMs : Nat) : Outcome :=
  match r with
  | .invoke i => i.execute directives folder stream nowMs
  | .version => .print ("tally " ++ programVersion ++ "\n")
  | .help => .print (about ++ "\n")
  | .misuse => { code := 2, output := "", errors := [], written := none }

end Rollup

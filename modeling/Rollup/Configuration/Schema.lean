import Rollup.Config.Schema
import Rollup.Configuration
import Rollup.Text.Utf8
import Rollup.Yaml.Reader
import Rollup.Yaml.Writer

/-!
How the whole configuration stands in a document, and in a file.
-/
namespace Rollup

namespace LogConfig

def ofDocument (doc : Document) : Except FormError LogConfig := do
  let s ← Section.ofFields ["level", "format", "enable_backtraces"] doc
  let d : LogConfig := {}
  return {
    level := ← s.read "level" d.level (Document.readName Level.all Level.name)
    format := ← s.read "format" d.format (Document.readName LogFormat.all LogFormat.name)
    backtraces := ← s.read "enable_backtraces" d.backtraces Document.readBool }

def entries (c : LogConfig) : List (String × Document) :=
  [("level", .text c.level.name), ("format", .text c.format.name),
    ("enable_backtraces", .bool c.backtraces)]

def toDocument (c : LogConfig) : Document := .map c.entries

end LogConfig

/-- Puts a value under a name, in place of one that is there, and keeps the names sorted. -/
def putTag (key value : String) : List (String × String) → List (String × String)
  | [] => [(key, value)]
  | (k, v) :: rest =>
    if key = k then (key, value) :: rest
    else if key < k then (key, value) :: (k, v) :: rest
    else (k, v) :: putTag key value rest

namespace MetricsConfig

def readTag (tags : List (String × String)) :
    String × Document → Except FormError (List (String × String))
  | (key, d) => do return putTag key (← d.readText) tags

/-- Of tags with one name the last one counts. -/
def readTags (doc : Document) : Except FormError (List (String × String)) := do
  (← doc.entries).foldlM readTag []

def ofDocument (doc : Document) : Except FormError MetricsConfig := do
  let s ← Section.ofFields ["statsd", "prefix", "default_tags", "hostname_tag"] doc
  let d : MetricsConfig := {}
  return {
    statsd := ← s.read "statsd" d.statsd (Document.readOptional Document.readText)
    namePrefix := ← s.read "prefix" d.namePrefix Document.readText
    defaultTags := ← s.read "default_tags" d.defaultTags readTags
    hostnameTag :=
      ← s.read "hostname_tag" d.hostnameTag (Document.readOptional Document.readText) }

def ofText? (value : Option String) : Document := (value.map .text).getD .null

def ofTags (tags : List (String × String)) : Document :=
  .map (tags.map fun (key, value) => (key, .text value))

def entries (c : MetricsConfig) : List (String × Document) :=
  [("statsd", ofText? c.statsd), ("prefix", .text c.namePrefix),
    ("default_tags", ofTags c.defaultTags), ("hostname_tag", ofText? c.hostnameTag)]

def toDocument (c : MetricsConfig) : Document := .map c.entries

end MetricsConfig

namespace Configuration

def fileName : String := "config.yml"

def filePath (folder : String) : String :=
  if folder.isEmpty || folder.endsWith "/" then folder ++ fileName else folder ++ "/" ++ fileName

def ofDocument (folder : String) (doc : Document) : Except FormError Configuration := do
  let s ← Section.ofFields ["logging", "metrics", "engine"] doc
  return {
    logging := ← s.read "logging" {} LogConfig.ofDocument
    metrics := ← s.read "metrics" {} MetricsConfig.ofDocument
    engine := ← s.read "engine" {} EngineConfig.ofDocument
    folder := folder }

def entries (c : Configuration) : List (String × Document) :=
  [("logging", c.logging.toDocument), ("metrics", c.metrics.toDocument),
    ("engine", c.engine.toDocument)]

def toDocument (c : Configuration) : Document := .map c.entries

def ofYaml (place : TroublePlace) (folder text : String) :
    Except ConfigurationError Configuration := do
  let doc ← (Yaml.read text).mapError fun fault => ⟨.badYaml, place, ⟨fault.message, []⟩⟩
  let c ← (ofDocument folder doc).mapError fun fault => ⟨.badYaml, place, ⟨fault.message, []⟩⟩
  c.engine.validate.mapError fun cause => ⟨.invalidValue, place, cause.explain⟩
  return c

def ofBytes (place : TroublePlace) (folder : String) (bytes : List UInt8) :
    Except ConfigurationError Configuration :=
  match decodeStrict bytes with
  | some text => ofYaml place folder (String.ofList text)
  | none => .error ⟨.badYaml, place, ⟨Yaml.Fault.invalidEncoding.message, []⟩⟩

def toYaml (c : Configuration) : String := Yaml.write c.toDocument

end Configuration

end Rollup

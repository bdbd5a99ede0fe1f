import SourceAudit.Audit
import SourceAudit.Export.Text
import SourceAudit.Project.FileTree

namespace SourceAudit

inductive AuditError where
  | unreadableConfig (path : String) (fault : FileFault)
  | malformedConfig
  | pattern (error : PatternRule.LoadError)
  | unreadableSource (path : String) (fault : FileFault)
deriving DecidableEq, Repr

namespace AuditError

def detail : AuditError → String
  | unreadableConfig path fault => "Failed to read config file " ++ path ++ ": " ++ fault.message
  | malformedConfig => "Failed to parse config"
  | pattern error => error.message
  | unreadableSource path fault => "Failed to read " ++ path ++ ": " ++ fault.message

def message (error : AuditError) : String :=
  match error with
  | unreadableConfig .. | malformedConfig => "Configuration error: " ++ error.detail
  | pattern _ => "Declarative rule error: " ++ error.detail
  | unreadableSource .. => error.detail

end AuditError

namespace Config

def parse (text : String) (read : String → Option Toml.Entries := Toml.parse?) :
    Except AuditError Config :=
  match parse? text read with
  | some config => .ok config
  | none => .error .malformedConfig

def registry (config : Config) (tests : Builtin.Tests := .standard) : Registry :=
  .ofRules (config.selectedRules tests)

end Config

namespace Audit

def build (setup : Setup) (tools : Tools := .standard) : Except AuditError Audit :=
  match ofSetup setup tools with
  | .ok audit => .ok audit
  | .error error => .error (.pattern error)

def ofConfig (config : Config) (tools : Tools := .standard) : Except AuditError Audit :=
  build { shared := config.registry tools.tests, config } tools

def ofToml (text : String) (tools : Tools := .standard) : Except AuditError Audit := do
  let config ← Config.parse text tools.read
  build { shared := config.registry tools.tests, config, patterns := [text] } tools

end Audit

namespace FileTree

variable (tree : FileTree)

def configNames : List String := ["pysast.toml", ".pysast.toml"]

/-- The configuration file of a directory or of the nearest one around it. -/
def findConfig (directory : String) : Option String :=
  (Path.ancestors directory).findSome? fun directory =>
    (configNames.map (Path.join directory)).find? tree.isFile

def readConfig (path : String) : Except AuditError String :=
  match tree.read path with
  | .ok text => .ok text
  | .error fault => .error (.unreadableConfig path fault)

def configFile (path : String) : Except AuditError Config := do
  Config.parse (← tree.readConfig path)

def auditFromFile (path : String) : Except AuditError Audit := do
  Audit.ofToml (← tree.readConfig path)

/-- The audit of a directory, by the nearest configuration file, with paths relative to the
    directory. -/
def auditFor (directory : String) : Except AuditError Audit := do
  let text ← match tree.findConfig directory with
    | some path => tree.readConfig path
    | none => pure ""
  let config ← Config.parse text
  Audit.build { root := some directory, shared := config.registry, config, patterns := [text] }

/-- The audit of a setup whose configuration, with its pattern rules, is in a file. -/
def auditWithConfig (setup : Audit.Setup) (path : String) : Except AuditError Audit := do
  let text ← tree.readConfig path
  let config ← Config.parse text
  Audit.build { setup with config, patterns := setup.patterns ++ [text] }

def shownPath (audit : Audit) (path : String) : String :=
  (audit.root.bind (Path.relative? · path)).getD path

def analyzeFile (audit : Audit) (path : String) : Except AuditError FileReport :=
  match tree.read path with
  | .ok source => .ok (audit.analyze source (shownPath audit path))
  | .error fault => .error (.unreadableSource path fault)

def analyzeFiles (audit : Audit) (paths : List String) : Report :=
  paths.foldl (fun report path =>
    match tree.analyzeFile audit path with
    | .ok file => report.addFile file
    | .error error => report.addFailure ⟨path, error.message⟩) {}

def save (collector : Collector) (path : String) : Except FileFault FileTree :=
  tree.write path collector.toText

end FileTree
end SourceAudit

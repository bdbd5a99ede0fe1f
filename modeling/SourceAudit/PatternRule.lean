import SourceAudit.PatternRule.Pattern
import SourceAudit.Rule
import SourceAudit.Taint
import SourceAudit.Toml.Decode

namespace SourceAudit

open Toml (Value Entries)

structure PatternEntry where
  name : PatternName
  code : String
  sinks : List CallPattern
  taint : TaintPolicy
  files : List FilePattern
  message : String
  severity : Severity
deriving DecidableEq

namespace PatternEntry

variable (entry : PatternEntry)

def requiresTaint : Bool := entry.taint.sources != []

def isSink (callee : String) : Bool := entry.sinks.any (·.isMatch callee)

def appliesTo (path : String) (covers : FilePattern → String → Bool := FilePattern.isMatch) : Bool :=
  entry.files.isEmpty || entry.files.any (covers · path)

def finding? (program : Program) (node : Node) (tainted : List String) : Option Finding := do
  let call ← node.call?
  let callee ← call.callee
  if entry.isSink callee &&
      (!entry.requiresTaint || call.values.any (entry.taint.isTainted tainted)) then
    return ⟨entry.name.text, entry.code, entry.message ++ ": `" ++ callee ++ "`", entry.severity,
      ⟨program.file, node.line⟩, none⟩
  else none

def check (program : Program) : List Finding :=
  program.scopes.flatMap fun scope =>
    (entry.taint.scan scope).filterMap fun (node, tainted) => entry.finding? program node tainted

end PatternEntry

structure PatternRule where
  entries : List PatternEntry
deriving DecidableEq

namespace PatternRule

def id : RuleId := ⟨"pattern-rule", "PSD001"⟩

def isEmpty (rule : PatternRule) : Bool := rule.entries.isEmpty

def entriesFor (rule : PatternRule) (path : String)
    (covers : FilePattern → String → Bool := FilePattern.isMatch) : List PatternEntry :=
  rule.entries.filter (·.appliesTo path covers)

def check (rule : PatternRule) (program : Program)
    (covers : FilePattern → String → Bool := FilePattern.isMatch) : List Finding :=
  Finding.sortByLine ((rule.entriesFor program.file covers).flatMap (·.check program))

variable (rule : PatternRule) (covers : FilePattern → String → Bool := FilePattern.isMatch)

def toRule : Rule where
  name := id.name
  code := id.code
  description := "Flag calls to configured sinks, optionally only with tainted arguments"
  severity := .error
  check := fun program => .ok (rule.check program covers)

def rules : List Rule := if rule.isEmpty then [] else [rule.toRule covers]

inductive LoadError where
  | malformed
  | invalid (context : String) (fault : PatternFault)
  | unknownSeverity (context : String) (value : String)
  | conflicts (faults : List PatternFault)
deriving DecidableEq, Repr

def LoadError.message : LoadError → String
  | malformed => "TOML parse error"
  | invalid context fault => context ++ ": " ++ fault.message
  | unknownSeverity context value =>
    context ++ ": unknown severity `" ++ value ++ "`, expected: error, warning, info"
  | conflicts faults =>
    "configuration validation errors:\n" ++
      "\n".intercalate (faults.map fun fault => "  - " ++ fault.message)

structure Declaration where
  name : String
  sinks : List String
  sources : List String
  sanitizers : List String
  files : Option (List String)
  message : String
  severity : String
  code : Option String
deriving DecidableEq, Repr

namespace Declaration

def fieldNames : List String :=
  ["name", "sinks", "sources", "sanitizers", "files", "message", "severity", "code"]

def decode? (value : Value) : Option Declaration := do
  let entries ← Entries.ofRecord? fieldNames value
  let name ← (← entries.optional? "name" Value.string?)
  let sinks ← (← entries.optional? "sinks" Value.strings?)
  let sources ← entries.field? "sources" Value.strings? []
  let sanitizers ← entries.field? "sanitizers" Value.strings? []
  let files ← entries.optional? "files" Value.strings?
  let message ← (← entries.optional? "message" Value.string?)
  let severity ← entries.field? "severity" Value.string? "error"
  let code ← entries.optional? "code" Value.string?
  return ⟨name, sinks, sources, sanitizers, files, message, severity, code⟩

def ofEntries? (entries : Entries) : Option (List Declaration) :=
  entries.field? "pattern-rule" (fun value => value.array?.bind (·.mapM decode?)) []

end Declaration

def orInvalid {α : Type} (context : String) : Except PatternFault α → Except LoadError α
  | .ok value => .ok value
  | .error fault => .error (.invalid context fault)

def readEach {α : Type} (read : String → Except PatternFault α) (context : String)
    (texts : List String) : Except LoadError (List α) :=
  texts.zipIdx.mapM fun (text, i) => orInvalid (context ++ "[" ++ toString i ++ "]") (read text)

def readSeverity (context value : String) : Except LoadError Severity :=
  match value with
  | "error" => .ok .error
  | "warning" => .ok .warning
  | "info" => .ok .info
  | _ => .error (.unknownSeverity context value)

def Declaration.toEntry (declaration : Declaration) (index : Nat) :
    Except LoadError PatternEntry := do
  let name ← orInvalid ("pattern-rule[" ++ toString index ++ "].name")
    (PatternName.parse declaration.name)
  let context := "pattern-rule '" ++ name.text ++ "'"
  if declaration.sinks = [] then throw (.invalid (context ++ ".sinks") .noSinks)
  let sinks ← readEach CallPattern.parse (context ++ ".sinks") declaration.sinks
  let sources ← readEach CallPattern.parse (context ++ ".sources") declaration.sources
  let sanitizers ← readEach CallPattern.parse (context ++ ".sanitizers") declaration.sanitizers
  let files ← readEach FilePattern.parse (context ++ ".files") (declaration.files.getD [])
  let severity ← readSeverity context declaration.severity
  return {
    name
    code := declaration.code.getD id.code
    sinks
    taint := ⟨sources.map (·.text), sanitizers.map (·.text)⟩
    files
    message := declaration.message
    severity }

def repeated : List PatternName → List PatternName → List PatternName
  | _, [] => []
  | seen, name :: rest =>
    if seen.contains name then name :: repeated seen rest else repeated (name :: seen) rest

def ofEntries (entries : List PatternEntry) : Except LoadError PatternRule :=
  match repeated [] (entries.map (·.name)) with
  | [] => .ok ⟨entries⟩
  | names => .error (.conflicts (names.map fun name => .duplicateName name.text))

/-- Loads the pattern rules of a configuration text. The first fault counts. -/
def load (text : String) (read : String → Option Entries := Toml.parse?) :
    Except LoadError PatternRule :=
  match (read text).bind Declaration.ofEntries? with
  | none => .error .malformed
  | some declarations => do
    ofEntries (← declarations.zipIdx.mapM fun (declaration, i) => declaration.toEntry i)

end PatternRule
end SourceAudit

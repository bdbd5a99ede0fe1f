import SourceAudit.Config
import SourceAudit.Entropy
import SourceAudit.Rule
import SourceAudit.Rules.Callee
import SourceAudit.Rules.Secret
import SourceAudit.Syntax.Node

namespace SourceAudit

/-- Finds passwords, tokens and other secrets in the source. The entropy may be of any type. -/
structure SensitiveInfo (Amount : Type) where
  weakPasswords : List String
  minEntropy : Amount
  minLength : Nat
  severity : Severity

namespace SensitiveInfo

def id : RuleId := ⟨"sensitive-info", "PS006"⟩

/-- The tests of texts on which the search for secrets rests. -/
structure Tests (Amount : Type) where
  isSensitive : String → Bool
  isPlaceholder : String → Bool
  provider? : String → Option String
  entropy : String → Amount
  le : Amount → Amount → Bool
  le_trans : ∀ {a b c}, le a b = true → le b c = true → le a c = true

def Tests.standard : Tests Binary64 where
  isSensitive := Secret.sensitiveName.isMatch
  isPlaceholder text := Secret.isPlaceholder text.toList
  provider? := Secret.provider?
  entropy := Entropy.shannon
  le := Binary64.le
  le_trans := Binary64.le_trans

def defaultWeakPasswords : List String :=
  ["password", "passw0rd", "password1", "123456", "12345678", "123456789", "111111", "abc123",
   "qwerty", "admin", "admin123", "root", "toor", "letmein", "welcome", "secret", "changeme",
   "default", "guest", "test"]

def environmentReads : List String :=
  ["os.getenv", "getenv", "environ.get", "environ.setdefault", "env"]

def defaultEntropy : Binary64 := .ofRatio false 9 2

def strictEntropy : Binary64 := .ofRatio false 4 1

def default : SensitiveInfo Binary64 := ⟨defaultWeakPasswords, defaultEntropy, 32, .error⟩

/-- Also takes shorter and less random texts for secrets. -/
def strict : SensitiveInfo Binary64 := { default with minEntropy := strictEntropy, minLength := 20 }

/-- The rule with its options on top. A negative length is ignored. -/
def withOptions (rule : SensitiveInfo Binary64) (options : RuleOptions) : SensitiveInfo Binary64 :=
  let length := options.int "min_entropy_length" rule.minLength
  { rule with
    weakPasswords := Text.extendUnique rule.weakPasswords (options.strings "weak_passwords")
    minEntropy := options.float "min_entropy" rule.minEntropy
    minLength := if length < 0 then rule.minLength else length.toNat }

def targetName? (target : Expr) : Option String :=
  match target.shape with
  | .identifier name => some name
  | .attribute _ name => some name
  | .subscript _ index => index.string?
  | _ => none

structure Named where
  name : String
  line : Nat
  text : String

def named? (name : String) (value : Expr) : Option Named :=
  value.string?.map fun text => ⟨name, value.line, text⟩

def isEnvironmentRead (call : Call) : Bool := call.isAny environmentReads

/-- The literals to which a node gives a name: by assignment, keyword or dictionary key. -/
def namedBy : Node → List Named
  | .stmt ⟨_, .assign assignment⟩ =>
    match assignment.value with
    | some value => (assignment.targets.filterMap targetName?).filterMap (named? · value)
    | none => []
  | .expr ⟨_, .call function args⟩ =>
    if isEnvironmentRead ⟨function, args⟩ then []
    else args.filterMap fun arg =>
      match arg.kind with
      | .keyword name => named? name arg.value
      | _ => none
  | .expr ⟨_, .dict entries⟩ =>
    entries.filterMap fun entry => do named? (← (← entry.key).string?) entry.value
  | _ => []

def environmentNames : Node → List (Nat × String)
  | .expr ⟨_, .call function args⟩ =>
    if isEnvironmentRead ⟨function, args⟩ then
      args.filterMap fun arg => arg.value.string?.map (arg.value.line, ·)
    else []
  | _ => []

variable {Amount : Type} (rule : SensitiveInfo Amount) (tests : Tests Amount)

def sensitiveBy (node : Node) : List Named :=
  (namedBy node).filter fun entry => tests.isSensitive entry.name

def claimed (program : Program) : List (Nat × String) :=
  program.nodes.flatMap fun node =>
    environmentNames node ++ (sensitiveBy tests node).map fun entry => (entry.line, entry.text)

def isWeak (text : String) : Bool := rule.weakPasswords.any (Text.sameIgnoringCase · text)

def namedMessage? (entry : Named) : Option String :=
  if rule.isWeak entry.text then
    some ("Weak credential `" ++ entry.text ++ "` assigned to `" ++ entry.name ++ "`")
  else if tests.isPlaceholder entry.text || Text.sameIgnoringCase entry.text entry.name then
    none
  else
    match tests.provider? entry.text with
    | some provider => some (provider ++ " assigned to `" ++ entry.name ++ "`")
    | none => some ("Hard-coded credential assigned to `" ++ entry.name ++
      "`; load it from the environment")

def named (program : Program) : List (Nat × String) :=
  program.nodes.flatMap fun node =>
    (sensitiveBy tests node).filterMap fun entry => (rule.namedMessage? tests entry).map (entry.line, ·)

def isRandom (text : String) : Bool :=
  rule.minLength ≤ text.toList.length && !text.toList.any Text.isBlank &&
    !Text.contains text "://" && tests.le rule.minEntropy (tests.entropy text)

def literalMessage? (text : String) : Option String :=
  if tests.isPlaceholder text then none
  else
    match tests.provider? text with
    | some provider => some (provider ++ " found in string literal `" ++ Text.truncate 8 text ++ "`")
    | none =>
      if rule.isRandom tests text then
        some ("High-entropy string `" ++ Text.truncate 8 text ++
          "` may be a hard-coded secret")
      else none

def literals (program : Program) : List (Nat × String) :=
  let settled := claimed tests program
  ((Node.program program).findAll .string).filterMap fun node => do
    let text ← node.expr?.bind Expr.string?
    if settled.contains (node.line, text) then none
    else return (node.line, ← rule.literalMessage? tests text)

def check (program : Program) : List Finding :=
  Finding.sortByLine ((rule.named tests program ++ rule.literals tests program).map fun (line, message) =>
    id.finding program line rule.severity message)

def toRule : Rule where
  name := id.name
  code := id.code
  description := "Detects hard-coded credentials, tokens and high-entropy secrets"
  severity := rule.severity
  check := fun program => .ok (rule.check tests program)

end SensitiveInfo
end SourceAudit

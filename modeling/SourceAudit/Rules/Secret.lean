import SourceAudit.Regex
import SourceAudit.Text.Search

namespace SourceAudit.Secret

open Regex

def sensitiveName : Regex :=
  .all [.either .atStart (.char '_'),
    .oneOf [anyCase "password", anyCase "passwd", anyCase "pwd", anyCase "secret",
      anyCase "secret_key", anyCase "api_key", anyCase "apikey", anyCase "access_key",
      anyCase "auth_token", anyCase "access_token", anyCase "token", anyCase "private_key",
      anyCase "client_secret", .all [anyCase "credential", optional (anyCase "s")]],
    .atEnd]

def joint : Regex := optional (one fun c => c == '_' || c == '-')

def placeholder : Regex :=
  .all [.atStart,
    .oneOf [atLeast 3 (anyCase "x"), many1 (char '*'), times 3 (char '.'),
      .all [anyCase "change", joint, anyCase "me"], .all [anyCase "replace", joint, anyCase "me"],
      anyCase "placeholder", anyCase "dummy", anyCase "example", anyCase "sample", anyCase "todo",
      anyCase "none", anyCase "null",
      .all [anyCase "your", one fun c => c == '_' || c == '-', many (noneOf ['\n'])],
      .all [char '<', many (noneOf ['>']), char '>'],
      .all [text "$\x7b", many (noneOf ['\x7d']), char '\x7d'],
      .all [char '$', many1 (one fun c => isLetter c || c == '_')],
      .all [text "\x7b\x7b", many (noneOf ['\x7d']), text "\x7d\x7d"],
      .all [text "%(", many (noneOf [')']), char ')', anyCase "s"],
      .all [char '%', anyCase "s"]],
    .atEnd]

def isUpperOrDigit (c : Char) : Bool := c.isUpper || c.isDigit

def isAlphanumOr (extra : List Char) (c : Char) : Bool := c.isAlphanum || extra.contains c

def isTokenChar : Char → Bool := isAlphanumOr ['_', '-']

def providers : List (String × Regex) :=
  [("AWS access key ID",
      .all [.wordEdge, .either (text "AKIA") (text "ASIA"), times 16 (one isUpperOrDigit),
        .wordEdge]),
   ("GitHub token",
      .all [.wordEdge, .either
        (.all [text "gh", one ['p', 'o', 'u', 's', 'r'].contains, char '_',
          times 36 (one Char.isAlphanum)])
        (.all [text "github_pat_", atLeast 40 (one (isAlphanumOr ['_']))])]),
   ("Slack token",
      .all [.wordEdge, text "xox", one ['b', 'a', 'p', 'r', 's'].contains, char '-',
        atLeast 10 (one (isAlphanumOr ['-']))]),
   ("Stripe live key",
      .all [.wordEdge, one ['r', 's'].contains, text "k_live_", atLeast 24 (one Char.isAlphanum)]),
   ("Google API key", .all [.wordEdge, text "AIza", times 35 (one isTokenChar)]),
   ("Private key",
      .all [text "-----BEGIN", many1 blank,
        many (.all [many1 (one Char.isUpper), many1 blank]), text "PRIVATE", many1 blank,
        text "KEY", optional (.all [many1 blank, text "BLOCK"]), text "-----"]),
   ("JSON Web Token",
      .all [.wordEdge, text "eyJ", atLeast 10 (one isTokenChar), text ".eyJ",
        atLeast 10 (one isTokenChar), char '.', many (one isTokenChar)])]

def isPlaceholder (value : List Char) : Bool :=
  let trimmed := Text.trim value
  trimmed.isEmpty || placeholder.isMatch (String.ofList trimmed)

def isSchemeChar (c : Char) : Bool := isLetter c || c.isDigit || ['+', '.', '-'].contains c

/-- Whether a text, given in reverse, ends with a scheme that starts at the edge of a word. -/
def endsWithScheme : List Char → Bool
  | [] => false
  | [c] => isLetter c
  | c :: before :: rest =>
    isSchemeChar c &&
      ((isLetter c && !Text.isWordChar before) || endsWithScheme (before :: rest))

def isUserChar (c : Char) : Bool := !(['/', ':', '@'].contains c || Text.isBlank c)

def isPasswordChar (c : Char) : Bool := !(['/', '@'].contains c || Text.isBlank c)

def isHostChar (c : Char) : Bool := !(c == '/' || Text.isBlank c)

/-- The password at the start of what follows the scheme of a URL, between a user and a host. -/
def password? (text : List Char) : Option (List Char) :=
  match text.takeWhile isUserChar, text.dropWhile isUserChar with
  | _ :: _, ':' :: rest =>
    match rest.takeWhile isPasswordChar, rest.dropWhile isPasswordChar with
    | [], _ => none
    | password, '@' :: c :: _ => if isHostChar c then some password else none
    | _, _ => none
  | _, _ => none

/-- The password of the first URL that has one. What stands before is given in reverse. -/
def urlPassword? (before : List Char) : List Char → Option (List Char)
  | [] => none
  | c :: rest =>
    let found := match c, rest with
      | ':', '/' :: '/' :: after => if endsWithScheme before then password? after else none
      | _, _ => none
    match found with
    | some password => some password
    | none => urlPassword? (c :: before) rest

/-- The first known form that a text contains. A URL whose password is a placeholder has none. -/
def provider? (value : String) : Option String :=
  match providers.find? fun (_, regex) => regex.isMatch value with
  | some (label, _) => some label
  | none =>
    match urlPassword? [] value.toList with
    | some password => if isPlaceholder password then none else some "Credentials in URL"
    | none => none

end SourceAudit.Secret

import SourceAudit.Number.Reading

namespace SourceAudit.Toml.Quoted

def isPlain (c : Char) : Bool := c == '\t' || (32 ≤ c.toNat && c.toNat ≠ 127)

def ofCode? (digits : List Char) : Option Char :=
  if digits.all fun c => c.isDigit || ('a' ≤ c && c ≤ 'f') || ('A' ≤ c && c ≤ 'F') then
    (Number.natural? 16 digits).bind fun code =>
      if code < 0xd800 ∨ (0xdfff < code ∧ code ≤ 0x10ffff) then some (Char.ofNat code) else none
  else none

def ofLetter? : Char → Option Char
  | 'b' => some '\x08'
  | 't' => some '\t'
  | 'n' => some '\n'
  | 'f' => some '\x0c'
  | 'r' => some '\r'
  | '\x22' => some '\x22'
  | '\\' => some '\\'
  | _ => none

def coded? (width : Nat) (text : List Char) : Option (Char × List Char) :=
  if width ≤ text.length then (ofCode? (text.take width)).map (·, text.drop width) else none

def escape? : List Char → Option (Char × List Char)
  | 'u' :: rest => coded? 4 rest
  | 'U' :: rest => coded? 8 rest
  | letter :: rest => (ofLetter? letter).map (·, rest)
  | [] => none

theorem coded?_rest_le {width : Nat} {text rest : List Char} {c : Char}
    (found : coded? width text = some (c, rest)) : rest.length ≤ text.length := by
  unfold coded? at found
  split at found
  · obtain ⟨_, _, same⟩ := Option.map_eq_some_iff.mp found
    cases same
    simp
  · cases found

theorem escape?_rest_lt {text rest : List Char} {c : Char} (found : escape? text = some (c, rest)) :
    rest.length < text.length := by
  unfold escape? at found
  split at found
  · exact Nat.lt_succ_of_le (coded?_rest_le found)
  · exact Nat.lt_succ_of_le (coded?_rest_le found)
  · obtain ⟨_, _, same⟩ := Option.map_eq_some_iff.mp found
    cases same
    simp
  · cases found

def prepend (c : Char) (result : List Char × List Char) : List Char × List Char :=
  (c :: result.1, result.2)

def basic? (text : List Char) : Option (List Char × List Char) :=
  match text with
  | [] => none
  | '\x22' :: rest => some ([], rest)
  | '\\' :: rest =>
    match _found : escape? rest with
    | none => none
    | some (c, after) => (basic? after).map (prepend c)
  | c :: rest => if isPlain c then (basic? rest).map (prepend c) else none
termination_by text.length
decreasing_by
  · have := escape?_rest_lt _found
    simp only [List.length_cons]
    omega
  · simp

def literal? : List Char → Option (List Char × List Char)
  | [] => none
  | '\x27' :: rest => some ([], rest)
  | c :: rest => if isPlain c then (literal? rest).map (prepend c) else none

def isSpace (c : Char) : Bool := c == ' ' || c == '\t'

def newline? : List Char → Option (List Char)
  | '\n' :: rest => some rest
  | '\r' :: '\n' :: rest => some rest
  | _ => none

theorem newline?_length_lt {text rest : List Char} (found : newline? text = some rest) :
    rest.length < text.length := by
  unfold newline? at found
  split at found <;> grind

def skipBlank (text : List Char) : List Char :=
  match text with
  | ' ' :: rest | '\t' :: rest | '\n' :: rest => skipBlank rest
  | '\r' :: '\n' :: rest => skipBlank rest
  | _ => text

theorem skipBlank_length_le (text : List Char) : (skipBlank text).length ≤ text.length := by
  fun_induction skipBlank text <;> grind

/-- What follows a line break and all blanks and breaks after it, if only blanks stand before. -/
def skipBreak? (text : List Char) : Option (List Char) :=
  (newline? (text.dropWhile isSpace)).map skipBlank

theorem skipBreak?_length_lt {text rest : List Char} (found : skipBreak? text = some rest) :
    rest.length < text.length := by
  simp only [skipBreak?, Option.map_eq_some_iff] at found
  obtain ⟨after, broken, rfl⟩ := found
  have := newline?_length_lt broken
  have := skipBlank_length_le after
  have := (List.dropWhile_sublist (p := isSpace) (l := text)).length_le
  omega

/-- The body of a string that may span lines. Up to two quotes may stand before the closing ones. -/
def multilineBasic? (text : List Char) : Option (List Char × List Char) :=
  match text with
  | [] => none
  | '\x22' :: '\x22' :: '\x22' :: '\x22' :: '\x22' :: rest => some (['\x22', '\x22'], rest)
  | '\x22' :: '\x22' :: '\x22' :: '\x22' :: rest => some (['\x22'], rest)
  | '\x22' :: '\x22' :: '\x22' :: rest => some ([], rest)
  | '\\' :: rest =>
    match _broken : skipBreak? rest with
    | some after => multilineBasic? after
    | none =>
      match _found : escape? rest with
      | none => none
      | some (c, after) => (multilineBasic? after).map (prepend c)
  | '\r' :: '\n' :: rest => (multilineBasic? rest).map (prepend '\n')
  | c :: rest =>
    if isPlain c || c == '\n' then (multilineBasic? rest).map (prepend c) else none
termination_by text.length
decreasing_by
  · have := skipBreak?_length_lt _broken
    simp only [List.length_cons]
    omega
  · have := escape?_rest_lt _found
    simp only [List.length_cons]
    omega
  · simp only [List.length_cons]
    omega
  · simp

def multilineLiteral? : List Char → Option (List Char × List Char)
  | [] => none
  | '\x27' :: '\x27' :: '\x27' :: '\x27' :: '\x27' :: rest => some (['\x27', '\x27'], rest)
  | '\x27' :: '\x27' :: '\x27' :: '\x27' :: rest => some (['\x27'], rest)
  | '\x27' :: '\x27' :: '\x27' :: rest => some ([], rest)
  | '\r' :: '\n' :: rest => (multilineLiteral? rest).map (prepend '\n')
  | c :: rest =>
    if isPlain c || c == '\n' then (multilineLiteral? rest).map (prepend c) else none

/-- A line break right after the opening quotes does not count. -/
def skipFirstBreak (text : List Char) : List Char := (newline? text).getD text

def string? : List Char → Option (String × List Char)
  | '\x22' :: '\x22' :: '\x22' :: rest => finish (multilineBasic? (skipFirstBreak rest))
  | '\x22' :: rest => finish (basic? rest)
  | '\x27' :: '\x27' :: '\x27' :: rest => finish (multilineLiteral? (skipFirstBreak rest))
  | '\x27' :: rest => finish (literal? rest)
  | _ => none
where
  finish (result : Option (List Char × List Char)) : Option (String × List Char) :=
    result.map fun (value, rest) => (String.ofList value, rest)

end SourceAudit.Toml.Quoted

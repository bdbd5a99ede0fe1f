import SourceAudit.Text.Search

namespace SourceAudit

namespace Glob

/-- A set of characters, as single ones and closed ranges. -/
abbrev Members := List (Char × Char)

inductive Token where
  | literal (c : Char)
  | anyChar
  | anyText
  /-- Nothing, whole components, or all the rest. -/
  | components
  | within (members : Members)
  | outside (members : Members)
deriving DecidableEq, Repr

end Glob

structure Glob where
  tokens : List Glob.Token
deriving DecidableEq, Repr

namespace Glob

inductive Fault where
  | wildcards (position : Nat)
  | recursive (position : Nat)
  | range (position : Nat)
deriving DecidableEq, Repr

def Fault.message : Fault → String
  | .wildcards position =>
    near position ++ "wildcards are either regular `*` or recursive `**`"
  | .recursive position =>
    near position ++ "recursive wildcards must form a single path component"
  | .range position => near position ++ "invalid range pattern"
where
  near (position : Nat) : String :=
    "Pattern syntax error near position " ++ toString position ++ ": "

def members : List Char → Members
  | first :: '-' :: last :: rest => (first, last) :: members rest
  | c :: rest => (c, c) :: members rest
  | [] => []

/-- The members between the brackets and what follows them. The first member may be a bracket. -/
def splitClass? : List Char → Option (List Char × List Char)
  | first :: rest => (Text.splitOnce [']'] rest).map fun (inner, after) => (first :: inner, after)
  | [] => none

def readClass? : List Char → Option (Token × List Char)
  | '!' :: rest => (splitClass? rest).map fun (inner, after) => (.outside (members inner), after)
  | rest => (splitClass? rest).map fun (inner, after) => (.within (members inner), after)

/-- Reads a run of stars, of which two have to fill a component. Gives what follows the run. -/
def readStars (position : Nat) (before : Option Char) (stars : Nat) (after : List Char) :
    Except Fault (Token × List Char) :=
  if 2 < stars then .error (.wildcards (position + 2))
  else if stars < 2 then .ok (.anyText, after)
  else if before.any (· ≠ '/') then .error (.recursive (position - 1))
  else
    match after with
    | [] => .ok (.components, [])
    | c :: rest =>
      if c = '/' then .ok (.components, rest) else .error (.recursive (position + 2))

def readToken (position : Nat) (before : Option Char) (c : Char) (rest : List Char) :
    Except Fault (Token × List Char) :=
  match c with
  | '?' => .ok (.anyChar, rest)
  | '*' =>
    readStars position before (1 + (rest.takeWhile (· == '*')).length) (rest.dropWhile (· == '*'))
  | '[' =>
    match readClass? rest with
    | some read => .ok read
    | none => .error (.range position)
  | _ => .ok (.literal c, rest)

theorem splitOnce_length {needle text before after : List Char}
    (split : Text.splitOnce needle text = some (before, after)) : after.length ≤ text.length := by
  induction text generalizing before after with
  | nil =>
    simp only [Text.splitOnce] at split
    split at split <;> simp_all
  | cons c rest ih =>
    simp only [Text.splitOnce] at split
    split at split
    · simp only [Option.some.injEq, Prod.mk.injEq] at split
      simp [← split.2]
    · simp only [Option.map_eq_some_iff, Prod.exists, Prod.mk.injEq] at split
      obtain ⟨_, _, found, _, rfl⟩ := split
      have shorter := ih found
      simp only [List.length_cons]
      omega

theorem splitClass?_length {text inner after : List Char}
    (read : splitClass? text = some (inner, after)) : after.length ≤ text.length := by
  cases text with
  | nil => simp [splitClass?] at read
  | cons c rest =>
    simp only [splitClass?, Option.map_eq_some_iff, Prod.exists, Prod.mk.injEq] at read
    obtain ⟨_, _, found, _, rfl⟩ := read
    have shorter := splitOnce_length found
    simp only [List.length_cons]
    omega

theorem readClass?_length {text after : List Char} {token : Token}
    (read : readClass? text = some (token, after)) : after.length ≤ text.length := by
  unfold readClass? at read
  split at read <;>
    simp only [Option.map_eq_some_iff, Prod.exists, Prod.mk.injEq] at read <;>
    obtain ⟨_, _, found, _, rfl⟩ := read <;>
    have shorter := splitClass?_length found
  · simp only [List.length_cons]
    omega
  · exact shorter

theorem readStars_length {position stars : Nat} {before : Option Char} {text after : List Char}
    {token : Token} (read : readStars position before stars text = .ok (token, after)) :
    after.length ≤ text.length := by
  unfold readStars at read
  repeat' split at read
  all_goals simp_all

theorem readToken_length {position : Nat} {before : Option Char} {c : Char}
    {rest after : List Char} {token : Token}
    (read : readToken position before c rest = .ok (token, after)) :
    after.length ≤ rest.length := by
  unfold readToken at read
  split at read
  · simp_all
  · have shorter := readStars_length read
    have dropped := (List.dropWhile_sublist (· == '*') (l := rest)).length_le
    omega
  · split at read
    · rename_i found
      simp only [Except.ok.injEq] at read
      exact readClass?_length (found.trans (by rw [read]))
    · simp at read
  · simp_all

def readFrom (position : Nat) (before : Option Char) (text : List Char) :
    Except Fault (List Token) :=
  match text with
  | [] => .ok []
  | c :: rest =>
    match _read : readToken position before c rest with
    | .error fault => .error fault
    | .ok (token, after) => do
      let consumed := (c :: rest).take (rest.length + 1 - after.length)
      let tokens ← readFrom (position + consumed.length) consumed.getLast? after
      return token :: tokens
termination_by text.length
decreasing_by
  have shorter := readToken_length _read
  simp only [List.length_cons]
  omega

def parse (text : String) : Except Fault Glob := return ⟨← readFrom 0 none text.toList⟩

def hasMember (members : Members) (c : Char) : Bool :=
  members.any fun (first, last) => first ≤ c && c ≤ last

def Token.accepts (c : Char) : Token → Bool
  | literal expected => c == expected
  | anyChar => true
  | within members => hasMember members c
  | outside members => !hasMember members c
  | anyText | components => false

/-- For each position of a text, the first and the end included, whether the tokens so far can end
    there. -/
abbrev Reach := List Bool

def Reach.onward (earlier : Bool) : Reach → Reach
  | [] => []
  | here :: rest => (earlier || here) :: onward (earlier || here) rest

/-- Positions that some components lead to: the reached ones, those after a slash, and the end. The
    first position has been decided. -/
def Reach.overComponents (earlier : Bool) : List Char → Reach → Reach
  | [_], here :: _ => [earlier || here]
  | c :: text, here :: rest =>
    (here || (c == '/' && earlier)) :: overComponents (earlier || here) text rest
  | _, _ => []

def Token.advance (text : List Char) (reach : Reach) : Token → Reach
  | anyText => reach.onward false
  | components =>
    match reach with
    | [] => []
    | first :: rest => first :: Reach.overComponents first text rest
  | token => false :: List.zipWith (fun c here => here && token.accepts c) text reach

def Reach.start (text : List Char) : Reach := true :: text.map fun _ => false

def isMatch (glob : Glob) (text : String) : Bool :=
  let reach := glob.tokens.foldl (fun reach token => token.advance text.toList reach)
    (Reach.start text.toList)
  reach.getLast?.any id

end Glob
end SourceAudit

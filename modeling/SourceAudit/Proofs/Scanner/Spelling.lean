import SourceAudit.Proofs.Scanner.Relocation
import SourceAudit.Proofs.Scanner.Seam

open List

namespace SourceAudit

namespace Token

def isWord : List Char → Bool
  | [] => false
  | c :: others => (Text.isAlphabetic c || c == '_') && others.all Text.isIdentifierChar

/-- A word or one of the symbols that blocks need, written as its text. -/
def isSpelled (token : Token) : Bool :=
  match token.kind with
  | .delimiter => ["(", ")", ",", ":"].contains token.text
  | .operator => token.text == "="
  | kind => isWord token.text.toList && kind == kindOfWord token.text

def joined (token next : Token) : Bool := next.kind == .delimiter || token.text == "("

def spelledAfter : Token → List Token → List Char
  | _, [] => []
  | token, next :: others =>
    (if joined token next then [] else [' ']) ++ (next.text.toList ++ spelledAfter next others)

def openAfter (depth : Nat) (tokens : List Token) : Nat :=
  tokens.foldl (fun depth token => depthAfter ⟨token.kind, token.text.toList, 0, []⟩ depth) depth

theorem openAfter_cons (depth : Nat) (token : Token) (tokens : List Token) :
    openAfter depth (token :: tokens) = openAfter (openAfter depth [token]) tokens := rfl

structure Balanced (tokens : List Token) : Prop where
  spelled : ∀ token ∈ tokens, token.isSpelled = true
  level : ∀ depth, openAfter depth tokens = depth

structure Phrase where
  first : Token
  others : List Token
  balanced : Balanced (first :: others)

namespace Phrase

def tokens (phrase : Phrase) : List Token := phrase.first :: phrase.others

def text (phrase : Phrase) : List Char :=
  phrase.first.text.toList ++ spelledAfter phrase.first phrase.others

end Phrase

def separators : List Char := [' ', '\n', '(', ')', ',', ':']

theorem not_isDigit_of_word {c : Char} (start : (Text.isAlphabetic c || c == '_') = true) :
    c.isDigit = false := by
  by_contra digit
  simp only [Bool.not_eq_false, Char.isDigit, Bool.and_eq_true, decide_eq_true_eq, ge_iff_le,
    UInt32.le_iff_toNat_le] at digit
  obtain ⟨low, high⟩ : 48 ≤ c.toNat ∧ c.toNat ≤ 57 := digit
  have spelled : ∃ value : Fin 10, c = Char.ofNat (48 + value) := by
    refine ⟨⟨c.toNat - 48, by omega⟩, ?_⟩
    rw [Nat.add_sub_of_le low, Char.ofNat_toNat]
  obtain ⟨value, rfl⟩ := spelled
  revert value
  decide

theorem not_mem_of_word {c : Char} (start : (Text.isAlphabetic c || c == '_') = true) :
    c ∉ ['\x22', '\x27', '.', '#', '\n', '\\', ' ', '\t', '\x0c', '\r'] := by
  intro member
  revert start
  simp only [mem_cons, not_mem_nil, or_false] at member
  rcases member with rfl | rfl | rfl | rfl | rfl | rfl | rfl | rfl | rfl | rfl <;> decide

def IsVisible (c : Char) : Prop :=
  isIndentChar c = false ∧ ∀ tail, Scanner.isBlankLine (c :: tail) = false

theorem isVisible_of_not_mem {c : Char} (other : c ∉ ['#', '\n', '\\', ' ', '\t', '\x0c', '\r']) :
    IsVisible c := by
  simp only [mem_cons, not_mem_nil, or_false, not_or] at other
  refine ⟨by simp [isIndentChar, other], ?_⟩
  intro tail
  exact Scanner.isBlankLine_eq_false other.1 other.2.1 fun _ joint => absurd joint other.2.2.1

def Breaks (rest : List Char) : Prop := ∀ c ∈ rest.head?, Text.isIdentifierChar c = false ∧ isQuote c = false

theorem breaks_of_mem {c : Char} (ends : c ∈ separators) (rest : List Char) : Breaks (c :: rest) := by
  intro first same
  cases same
  simp only [separators, mem_cons, not_mem_nil, or_false] at ends
  rcases ends with rfl | rfl | rfl | rfl | rfl | rfl <;> decide

theorem wordLexeme_append {word rest : List Char} (letters : ∀ letter ∈ word, Text.isIdentifierChar letter = true)
    (breaks : Breaks rest) : wordLexeme (word ++ rest) = ⟨kindOfWord (String.ofList word), word, 0, rest⟩ := by
  cases rest with
  | nil =>
    have taken : (word ++ []).takeWhile Text.isIdentifierChar = word := by
      rw [takeWhile_append_of_pos letters, takeWhile_nil, append_nil]
    have left : (word ++ []).dropWhile Text.isIdentifierChar = [] := by
      rw [dropWhile_append_of_pos letters, dropWhile_nil]
    unfold wordLexeme
    simp only [taken, left]
  | cons c rest =>
    have stops := breaks c rfl
    have taken : (word ++ c :: rest).takeWhile Text.isIdentifierChar = word := by
      rw [takeWhile_append_of_pos letters, takeWhile_cons_of_neg (by simp [stops.1]),
        append_nil]
    have left : (word ++ c :: rest).dropWhile Text.isIdentifierChar = c :: rest := by
      rw [dropWhile_append_of_pos letters, dropWhile_cons_of_neg (by simp [stops.1])]
    unfold wordLexeme
    simp only [taken, left, stops.2, Bool.false_and, Bool.false_eq_true, ↓reduceIte]

theorem lexeme_symbol {c d : Char} (more : List Char) (symbol : c ∈ [')', ',', ':', '='])
    (ends : d ∈ separators) :
    lexeme c (d :: more) = ⟨if c = '=' then .operator else .delimiter, [c], 0, d :: more⟩ := by
  simp only [separators, mem_cons, not_mem_nil, or_false] at symbol ends
  rcases symbol with rfl | rfl | rfl | rfl <;>
    rcases ends with rfl | rfl | rfl | rfl | rfl | rfl <;> rfl

theorem isSpelled_cases {token : Token} (spelled : token.isSpelled = true) :
    isWord token.text.toList = true ∧ token.kind = kindOfWord token.text ∨
      token.kind = .delimiter ∧ token.text ∈ ["(", ")", ",", ":"] ∨
      token.kind = .operator ∧ token.text = "=" := by
  unfold isSpelled at spelled
  split at spelled
  · exact .inr (.inl ⟨by assumption, by simpa using spelled⟩)
  · exact .inr (.inr ⟨by assumption, by simpa using spelled⟩)
  · exact .inl (by simpa using spelled)

theorem isLayout_of_isSpelled {token : Token} (spelled : token.isSpelled = true) :
    token.kind.isLayout = false := by
  rcases isSpelled_cases spelled with ⟨-, kind⟩ | ⟨kind, -⟩ | ⟨kind, -⟩
  · rw [kind]
    exact (kindOfWord_written token.text).1
  · rw [kind]
    rfl
  · rw [kind]
    rfl

def Parted (token : Token) (rest : List Char) : Prop :=
  token.text = "(" ∨ ∃ c ∈ separators, ∃ more, rest = c :: more

theorem isIdentifierChar_of_isWord {text : List Char} (word : isWord text = true) :
    ∀ c ∈ text, Text.isIdentifierChar c = true := by
  cases text with
  | nil => cases word
  | cons c cs =>
    rw [isWord, Bool.and_eq_true, all_eq_true] at word
    intro letter member
    rcases mem_cons.mp member with rfl | member
    · have start := word.1
      simp only [Bool.or_eq_true] at start
      simp only [Text.isIdentifierChar, Text.isAlphanumeric, Bool.or_eq_true]
      rcases start with letter | mark
      · exact .inl (.inl letter)
      · exact .inr mark
    · exact word.2 letter member

theorem lexeme_word {c : Char} {cs rest : List Char} (word : isWord (c :: cs) = true) (breaks : Breaks rest) :
    lexeme c (cs ++ rest) = ⟨kindOfWord (String.ofList (c :: cs)), c :: cs, 0, rest⟩ := by
  have letters := isIdentifierChar_of_isWord word
  rw [isWord, Bool.and_eq_true] at word
  have other := not_mem_of_word word.1
  simp only [mem_cons, not_mem_nil, or_false, not_or] at other
  unfold lexeme
  rw [if_neg (by simp [isQuote, other]), if_neg (by simp [not_isDigit_of_word word.1, other]),
    if_pos word.1, ← cons_append, wordLexeme_append letters breaks]

def IsReadBack (token : Token) : Prop :=
  ∃ c cs, token.text.toList = c :: cs ∧ IsVisible c ∧ ∀ rest, token.Parted rest →
    lexeme c (cs ++ rest) = ⟨token.kind, token.text.toList, 0, rest⟩

theorem isReadBack_word {token : Token} (word : isWord token.text.toList = true)
    (kind : token.kind = kindOfWord token.text) : token.IsReadBack := by
  cases letters : token.text.toList with
  | nil =>
    rw [letters] at word
    cases word
  | cons c cs =>
    rw [letters] at word
    have start := word
    rw [isWord, Bool.and_eq_true] at start
    have other := not_mem_of_word start.1
    simp only [mem_cons, not_mem_nil, or_false, not_or] at other
    refine ⟨c, cs, letters, isVisible_of_not_mem (by simp [other]), ?_⟩
    rintro rest (bracket | ⟨d, ends, more, rfl⟩)
    · rw [bracket] at letters
      cases letters
      cases start.1
    · rw [lexeme_word word (breaks_of_mem ends more), ← letters, String.ofList_toList, kind]

theorem isReadBack_symbol {token : Token} (c : Char) (symbol : c ∈ [')', ',', ':', '='])
    (text : token.text.toList = [c]) (kind : token.kind = if c = '=' then .operator else .delimiter) :
    token.IsReadBack := by
  have other : c ∉ ['(', '#', '\n', '\\', ' ', '\t', '\x0c', '\r'] := by
    simp only [mem_cons, not_mem_nil, or_false] at symbol
    rcases symbol with rfl | rfl | rfl | rfl <;> decide
  refine ⟨c, [], text, isVisible_of_not_mem (fun member => other (mem_cons_of_mem _ member)), ?_⟩
  rintro rest (bracket | ⟨d, ends, more, rfl⟩)
  · rw [bracket] at text
    cases text
    exact absurd (mem_cons_self ..) other
  · rw [nil_append, lexeme_symbol more symbol ends, kind, text]

theorem isReadBack {token : Token} (spelled : token.isSpelled = true) : token.IsReadBack := by
  rcases isSpelled_cases spelled with ⟨word, kind⟩ | ⟨kind, symbol⟩ | ⟨kind, symbol⟩
  · exact isReadBack_word word kind
  · simp only [mem_cons, not_mem_nil, or_false] at symbol
    rcases symbol with symbol | symbol | symbol | symbol
    · refine ⟨'(', [], by rw [symbol]; rfl, isVisible_of_not_mem (by decide), ?_⟩
      intro rest _
      rw [kind, symbol]
      rfl
    · exact isReadBack_symbol ')' (by decide) (by rw [symbol]; rfl) kind
    · exact isReadBack_symbol ',' (by decide) (by rw [symbol]; rfl) kind
    · exact isReadBack_symbol ':' (by decide) (by rw [symbol]; rfl) kind
  · exact isReadBack_symbol '=' (by decide) (by rw [symbol]; rfl) kind

theorem exists_visible {token : Token} (spelled : token.isSpelled = true) :
    ∃ c cs, token.text.toList = c :: cs ∧ IsVisible c := by
  obtain ⟨c, cs, text, visible, -⟩ := isReadBack spelled
  exact ⟨c, cs, text, visible⟩

theorem parted_spelledAfter (token : Token) {others : List Token}
    (spelled : ∀ other ∈ others, other.isSpelled = true) (rest : List Char) :
    token.Parted (spelledAfter token others ++ '\n' :: rest) := by
  cases others with
  | nil => exact .inr ⟨'\n', by decide, rest, rfl⟩
  | cons next others =>
    unfold spelledAfter
    cases closely : joined token next with
    | false => exact .inr ⟨' ', by decide, _, rfl⟩
    | true =>
      by_cases bracket : token.text = "("
      · exact .inl bracket
      -- the next token is a delimiter, whose only character is a separator
      have kind : next.kind = .delimiter := by simpa [joined, bracket] using closely
      have symbol := spelled next (mem_cons_self ..)
      simp only [isSpelled, kind, contains_eq_mem, mem_cons, not_mem_nil, or_false,
        decide_eq_true_eq] at symbol
      simp only [↓reduceIte, nil_append, append_assoc]
      rcases symbol with symbol | symbol | symbol | symbol
      · exact .inr ⟨'(', by decide, _, by rw [symbol]; rfl⟩
      · exact .inr ⟨')', by decide, _, by rw [symbol]; rfl⟩
      · exact .inr ⟨',', by decide, _, by rw [symbol]; rfl⟩
      · exact .inr ⟨':', by decide, _, by rw [symbol]; rfl⟩

def spelling (token : Token) : Kind × String := (token.kind, token.text)

theorem forall₂_alike_iff {tokens others : List Token} :
    List.Forall₂ (Token.Alike fun _ _ => True) tokens others ↔
      tokens.map spelling = others.map spelling := by
  rw [← forall₂_eq_eq_eq, forall₂_map_left_iff, forall₂_map_right_iff]
  have same : (Token.Alike fun _ _ => True) = fun token other => token.spelling = other.spelling := by
    funext token other
    apply propext
    constructor
    · intro alike
      rw [spelling, spelling, alike.kind, alike.text]
    · intro same
      exact ⟨congrArg Prod.fst same, congrArg Prod.snd same, trivial⟩
  rw [same]

end Token

namespace Scanner

open Token

def spellings (scanner : Scanner) : List (Kind × String) := scanner.tokens.map spelling

theorem spellings_relocated (scanner : Scanner) (line : Nat) :
    { scanner with line := line }.spellings = scanner.spellings := by
  have alike : Scanner.Alike (fun _ _ => True) { scanner with line := line } scanner :=
    ⟨rfl, trivial, rfl, forall₂_same.mpr fun _ _ => ⟨rfl, rfl, trivial⟩, rfl, rfl, rfl⟩
  exact forall₂_alike_iff.mp (tokens_alike (fun _ _ => trivial) alike)

variable (line : Nat) (columns : List Nat)

def within (text : List Char) (content : Bool) (depth : Nat) : Scanner :=
  ⟨text, line, columns, [], false, content, depth⟩

theorem spellings_token {token : Token} (spelled : token.isSpelled = true) {rest : List Char}
    (parted : token.Parted rest) {gap : List Char} (blank : ∀ c ∈ gap, isIndentChar c = true)
    (content : Bool) (depth : Nat) :
    (within line columns (gap ++ (token.text.toList ++ rest)) content depth).spellings =
      token.spelling :: (within line columns rest true (openAfter depth [token])).spellings := by
  obtain ⟨c, cs, text, visible, reads⟩ := isReadBack spelled
  have ahead : (gap ++ (token.text.toList ++ rest)).dropWhile isIndentChar = c :: (cs ++ rest) := by
    rw [dropWhile_append_of_pos blank, text, cons_append,
      dropWhile_cons_of_neg (by simp [visible.1])]
  have taken : Steps (within line columns (gap ++ (token.text.toList ++ rest)) content depth)
      (some _) _ := .unit rfl (by simp [within]) ahead (visible.2 _)
  rw [reads rest parted] at taken
  have inner : token.kind ≠ .endOfInput := by
    intro kind
    have := isLayout_of_isSpelled spelled
    simp [kind, Kind.isLayout] at this
  rw [spellings, tokens_of_some taken.step_eq inner, map_cons, String.ofList_toList]
  exact congrArg (token.spelling :: ·)
    (spellings_relocated (within line columns rest true (openAfter depth [token])) (lineAfter line 0))

theorem spellings_break (rest : List Char) :
    (within line columns ('\n' :: rest) true 0).spellings =
      (.newline, "\n") :: (between rest line columns true).spellings := by
  have taken : Steps (within line columns ('\n' :: rest) true 0) (some _) _ :=
    .lineBreak rfl (by simp [within]) rfl (.inl rfl) rfl
  rw [spellings, tokens_of_some taken.step_eq (by simp), map_cons]
  exact congrArg ((Kind.newline, "\n") :: ·)
    (spellings_relocated (between rest line columns true) (lineAfter line 1))

theorem spellings_spelledAfter (token : Token) {others : List Token} {depth : Nat}
    (spelled : ∀ other ∈ others, other.isSpelled = true) (closed : openAfter depth others = 0)
    (rest : List Char) :
    (within line columns (spelledAfter token others ++ '\n' :: rest) true depth).spellings =
      others.map spelling ++ (.newline, "\n") :: (between rest line columns true).spellings := by
  -- brackets may be open between the tokens, but not at the line break
  induction others generalizing token depth with
  | nil =>
    obtain rfl : depth = 0 := closed
    exact spellings_break line columns rest
  | cons next others ih =>
    have blank : ∀ c ∈ if Token.joined token next then [] else [' '], isIndentChar c = true := by
      split <;> simp [isIndentChar]
    have later : ∀ other ∈ others, other.isSpelled = true :=
      fun other member => spelled other (mem_cons_of_mem _ member)
    rw [openAfter_cons] at closed
    rw [spelledAfter, append_assoc, append_assoc,
      spellings_token line columns (spelled next (mem_cons_self ..))
        (parted_spelledAfter next later rest) blank,
      ih next later closed, map_cons, cons_append]

theorem spellings_phrase (phrase : Phrase) (rest : List Char) :
    (between (phrase.text ++ '\n' :: rest) line columns false).spellings =
      phrase.tokens.map spelling ++ (.newline, "\n") :: (between rest line columns true).spellings := by
  obtain ⟨first, others, spelled, level⟩ := phrase
  have later : ∀ other ∈ others, other.isSpelled = true :=
    fun other member => spelled other (mem_cons_of_mem _ member)
  have closed := level 0
  rw [openAfter_cons] at closed
  have taken := spellings_token line columns (spelled first (mem_cons_self ..))
    (parted_spelledAfter first later rest) (forall_mem_nil _) false 0
  rw [nil_append, spellings_spelledAfter line columns first later closed] at taken
  rw [Phrase.text, append_assoc]
  exact taken

end Scanner
end SourceAudit

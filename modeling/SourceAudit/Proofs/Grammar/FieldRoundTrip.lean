import SourceAudit.Proofs.Grammar.Composition
import SourceAudit.Proofs.Grammar.Enclosure
import SourceAudit.Proofs.Grammar.Outline
import SourceAudit.Proofs.Text.Splitting

open List

namespace SourceAudit

open Token

def Replacement.marks : List Char := ['\x27', '\x22', '(', ')', '[', ']', '\x7b', '\x7d']

/-- A replacement field with a dotted name, and perhaps a conversion and a format after it. -/
structure NameField where
  first : Identifier
  others : List Identifier
  conversion : Option Char
  spec : Option (List Char)
  letter : ∀ c ∈ conversion, Text.isAlphabetic c = true
  plain : ∀ text ∈ spec, ∀ c ∈ text, c ∉ Replacement.marks

namespace NameField

def attributes (words : List Identifier) : List Char := words.flatMap fun word => '.' :: word.text.toList

def name (field : NameField) : List Char := field.first.text.toList ++ attributes field.others

def suffix (field : NameField) : List Char :=
  field.conversion.elim [] (['!', ·]) ++ field.spec.elim [] (':' :: ·)

def text (field : NameField) : List Char := '\x7b' :: (field.name ++ (field.suffix ++ ['\x7d']))

def expr (line : Nat) (field : NameField) : Expr :=
  field.others.foldl (fun object word => ⟨line, .attribute object word.text⟩) ⟨line, .identifier field.first.text⟩

def attributeTokens (line : Nat) (words : List Identifier) : List Token :=
  words.flatMap fun word => [⟨.operator, ".", line⟩, ⟨.identifier, word.text, line⟩]

def tokens (line : Nat) (field : NameField) : List Token :=
  ⟨.identifier, field.first.text, line⟩ :: attributeTokens line field.others

end NameField

/-- Literal text in the body of a formatted string: braces are doubled. -/
def Piece.escaped (text : List Char) : List Char :=
  text.flatMap fun c => if c = '\x7b' ∨ c = '\x7d' then [c, c] else [c]

namespace FormattedPart

def written : FormattedPart NameField → List Char
  | literal text => Piece.escaped text.toList
  | value field => field.text

/-- Literals are not empty and never stand side by side. -/
def Alternating : List (FormattedPart NameField) → Prop
  | [] => True
  | literal text :: rest => text ≠ "" ∧ (∀ other more, rest ≠ literal other :: more) ∧ Alternating rest
  | value _ :: rest => Alternating rest

def readFrom (line : Nat) : List (FormattedPart NameField) → List (FormattedPart Expr)
  | [] => []
  | literal text :: rest => literal text :: readFrom (lineAfter line (text.toList.count '\n')) rest
  | value field :: rest => value (field.expr line) :: readFrom (lineAfter line (field.suffix.count '\n')) rest

def pieces (line : Nat) : List (FormattedPart NameField) → List Piece
  | [] => []
  | literal text :: rest => .literal text.toList :: pieces (lineAfter line (text.toList.count '\n')) rest
  | value field :: rest => .replacement field.name line :: pieces (lineAfter line (field.suffix.count '\n')) rest

end FormattedPart

theorem Identifier.exists_start (word : Identifier) : ∃ c cs, word.text.toList = c :: cs ∧
    (Text.isAlphabetic c || c == '_') = true ∧ IsVisible c := by
  obtain ⟨text, isWord, isFree⟩ := word
  dsimp only
  cases letters : text.toList with
  | nil =>
    rw [letters] at isWord
    cases isWord
  | cons c cs =>
    rw [letters, Token.isWord, Bool.and_eq_true] at isWord
    have other := not_mem_of_word isWord.1
    simp only [mem_cons, not_mem_nil, or_false, not_or] at other
    exact ⟨c, cs, rfl, isWord.1, isVisible_of_not_mem (by simp [other])⟩

theorem Text.ranges_visible : (alphabeticRanges ++ numericRanges).all (fun range =>
    0xa0 < range.1 && range.2 < 0x1680 || 0x1680 < range.1 && range.2 < 0x2000 ||
      0x205f < range.1 && range.2 < 0x3000 || 0x3000 < range.1) = true := by decide +kernel

theorem Text.isBlank_of_isIdentifierChar {c : Char} (letter : isIdentifierChar c = true) : isBlank c = false := by
  have code : (48 ≤ c.toNat ∧ c.toNat ≤ 122) ∨
      ∃ range ∈ alphabeticRanges ++ numericRanges, range.1 ≤ c.toNat ∧ c.toNat ≤ range.2 := by
    unfold isIdentifierChar isAlphanumeric isAlphabetic isNumeric at letter
    by_cases ascii : c.toNat < 0x80
    · rw [if_pos ascii, if_pos ascii] at letter
      simp only [Bool.or_eq_true, beq_iff_eq] at letter
      left
      rcases letter with (alphabetic | digit) | rfl
      · rcases (Bool.or_eq_true _ _).mp alphabetic with upper | lower
        · have bounds : 65 ≤ c.toNat ∧ c.toNat ≤ 90 := of_decide_eq_true (p := 65 ≤ c.val ∧ c.val ≤ 90) upper
          omega
        · obtain ⟨low, high⟩ := Bool.and_eq_true_iff.mp lower
          exact ⟨Nat.le_trans (by decide) (of_decide_eq_true low), Nat.le_trans (of_decide_eq_true high) (by decide)⟩
      · obtain ⟨low, high⟩ := Bool.and_eq_true_iff.mp digit
        exact ⟨Nat.le_trans (by decide) (of_decide_eq_true low), Nat.le_trans (of_decide_eq_true high) (by decide)⟩
      · decide
    · rw [if_neg ascii, if_neg ascii] at letter
      have mark : c ≠ '_' := by
        rintro rfl
        exact ascii (by decide)
      simp only [inRanges, Bool.or_eq_true, any_eq_true, Bool.and_eq_true, decide_eq_true_eq, beq_iff_eq,
        mark, or_false] at letter
      right
      rcases letter with ⟨range, member, inside⟩ | ⟨range, member, inside⟩
      · exact ⟨range, mem_append_left _ member, inside⟩
      · exact ⟨range, mem_append_right _ member, inside⟩
  have outside : ¬ isBlank c = true := by
    simp only [isBlank, Bool.or_eq_true, Bool.and_eq_true, decide_eq_true_eq, beq_iff_eq]
    rcases code with ascii | ⟨range, member, above, below⟩
    · omega
    · have visible := all_eq_true.mp ranges_visible range member
      simp only [Bool.or_eq_true, Bool.and_eq_true, decide_eq_true_eq] at visible
      omega
  simpa using outside

theorem Replacement.not_mem_of_isIdentifierChar {c : Char} (letter : Text.isIdentifierChar c = true) :
    c ∉ marks ∧ c ≠ ':' ∧ c ≠ '!' ∧ c ≠ '=' ∧ c ≠ '\n' := by
  have other : (marks ++ [':', '!', '=', '\n']).all (fun d => !Text.isIdentifierChar d) = true := by decide
  have apart : ∀ d ∈ marks ++ [':', '!', '=', '\n'], c ≠ d := by
    rintro d member rfl
    have found := all_eq_true.mp other c member
    rw [letter] at found
    cases found
  exact ⟨fun member => apart c (mem_append_left _ member) rfl, apart _ (by decide), apart _ (by decide),
    apart _ (by decide), apart _ (by decide)⟩

namespace NameField

variable (field : NameField)

theorem name_plain : ∀ c ∈ field.name,
    (c ∉ Replacement.marks ∧ c ≠ ':' ∧ c ≠ '!' ∧ c ≠ '=' ∧ c ≠ '\n') ∧ Text.isBlank c = false := by
  have letters : ∀ word : Identifier, ∀ c ∈ word.text.toList, _ ∧ Text.isBlank c = false := fun word c member =>
    ⟨Replacement.not_mem_of_isIdentifierChar (isIdentifierChar_of_isWord word.isWord c member),
      Text.isBlank_of_isIdentifierChar (isIdentifierChar_of_isWord word.isWord c member)⟩
  intro c member
  rcases mem_append.mp member with first | later
  · exact letters _ c first
  · obtain ⟨word, _, inside⟩ := mem_flatMap.mp later
    rcases mem_cons.mp inside with rfl | inside
    · decide
    · exact letters word c inside

theorem suffix_cases : field.suffix = [] ∨ ∃ mark run, field.suffix = mark :: run ∧
    (mark = ':' ∨ mark = '!' ∧ run.head? ≠ some '=') ∧ ∀ c ∈ run, c ∉ Replacement.marks := by
  have format : ∀ c ∈ field.spec.elim [] (':' :: ·), c ∉ Replacement.marks := by
    intro c member
    cases spec : field.spec with
    | none => simp [spec] at member
    | some text =>
      rw [spec] at member
      rcases mem_cons.mp member with rfl | inside
      · decide
      · exact field.plain text spec c inside
  cases conversion : field.conversion with
  | none =>
    cases spec : field.spec with
    | none => exact .inl (by simp [suffix, conversion, spec])
    | some text => exact .inr ⟨':', text, by simp [suffix, conversion, spec], .inl rfl, field.plain text spec⟩
  | some c =>
    have letter : Text.isIdentifierChar c = true := by
      simp [Text.isIdentifierChar, Text.isAlphanumeric, field.letter c conversion]
    obtain ⟨unmarked, _, _, other, _⟩ := Replacement.not_mem_of_isIdentifierChar letter
    refine .inr ⟨'!', c :: field.spec.elim [] (':' :: ·), by simp [suffix, conversion], .inr ⟨rfl, by simp [other]⟩, ?_⟩
    intro d member
    rcases mem_cons.mp member with rfl | inside
    · exact unmarked
    · exact format d inside

end NameField

namespace Replacement

theorem step_of_not_mem {place : Place} {c : Char} (unquoted : place.quote = none) (plain : c ∉ marks)
    (next? : Option Char) : place.isClosing c = false ∧ place.step c next? =
      if place.depth = 0 ∧ (c = ':' ∨ c = '!' ∧ next? ≠ some '=') then { place with ended := true } else place := by
  simp only [marks, mem_cons, not_mem_nil, or_false, not_or] at plain
  constructor
  · simp [Place.isClosing, plain]
  · simp [Place.step, unquoted, Token.isQuote, plain]

theorem scan_name {name : List Char} (plain : ∀ c ∈ name, c ∉ marks ∧ c ≠ ':' ∧ c ≠ '!') (rest : List Char) :
    scan .start (name ++ rest) = (scan .start rest).map fun field =>
      { field with expression := name ++ field.expression, body := name ++ field.body } := by
  induction name with
  | nil => simp
  | cons c name ih =>
    obtain ⟨unmarked, colon, bang⟩ := plain c mem_cons_self
    obtain ⟨inner, same⟩ := @step_of_not_mem .start c rfl unmarked (name ++ rest).head?
    rw [if_neg (by simp [colon, bang])] at same
    rw [cons_append, scan, if_neg (by simp [inner])]
    simp only [same]
    rw [ih fun d member => plain d (mem_cons_of_mem c member), Option.map_map]
    rfl

theorem scan_ended {run : List Char} (plain : ∀ c ∈ run, c ∉ marks) (rest : List Char) :
    scan ⟨0, none, true⟩ (run ++ '\x7d' :: rest) = some ⟨[], run, rest⟩ := by
  induction run with
  | nil => rfl
  | cons c run ih =>
    obtain ⟨inner, same⟩ := @step_of_not_mem ⟨0, none, true⟩ c rfl (plain c mem_cons_self)
      (run ++ '\x7d' :: rest).head?
    rw [ite_self] at same
    rw [cons_append, scan, if_neg (by simp [inner])]
    simp only [same]
    rw [ih fun d member => plain d (mem_cons_of_mem c member)]
    rfl

theorem scan_field (field : NameField) (rest : List Char) :
    scan .start (field.name ++ (field.suffix ++ '\x7d' :: rest)) =
      some ⟨field.name, field.name ++ field.suffix, rest⟩ := by
  have tail : scan .start (field.suffix ++ '\x7d' :: rest) = some ⟨[], field.suffix, rest⟩ := by
    rcases field.suffix_cases with none | ⟨mark, run, split, ends, plain⟩
    · rw [none]
      rfl
    · have unmarked : mark ∉ marks := by
        rcases ends with rfl | ⟨rfl, _⟩ <;> decide
      obtain ⟨inner, same⟩ := @step_of_not_mem .start mark rfl unmarked (run ++ '\x7d' :: rest).head?
      have open_ : mark = ':' ∨ mark = '!' ∧ (run ++ '\x7d' :: rest).head? ≠ some '=' := by
        refine ends.imp_right fun bang => ⟨bang.1, ?_⟩
        cases run with
        | nil => simp
        | cons c run => exact bang.2
      rw [if_pos ⟨rfl, open_⟩] at same
      rw [split, cons_append, scan, if_neg (by simp [inner])]
      simp only [same]
      have later := scan_ended plain rest
      simp only [Place.start]
      rw [later]
      rfl
  rw [scan_name fun c member => ⟨(field.name_plain c member).1.1, (field.name_plain c member).1.2.1,
    (field.name_plain c member).1.2.2.1⟩, tail]
  simp

theorem withoutMarker_of_not_mem {text : List Char} (absent : '=' ∉ text) : withoutMarker text = text := by
  unfold withoutMarker
  split
  · rename_i before same
    refine absurd ?_ absent
    rw [← mem_reverse, same]
    exact mem_cons_self
  · rfl

end Replacement

namespace Piece

variable {line : Nat}

theorem ofBody_replacement {text : List Char} {found : Replacement} (scanned : Replacement.scan .start text = some found)
    (single : ∀ more, text ≠ '\x7b' :: more)
    (filled : Replacement.withoutMarker (Text.trim found.expression) ≠ []) :
    ofBody line ('\x7b' :: text) = replacement (Replacement.withoutMarker (Text.trim found.expression)) line ::
      ofBody (lineAfter line (Replacement.lineBreaks found.body)) found.rest := by
  rw [ofBody.eq_def]
  split
  · simp_all
  · simp_all
  · rename_i other same
    cases same
    split
    · simp_all
    · rename_i field same
      rw [scanned] at same
      cases same
      exact if_neg filled
  · simp_all
  · simp_all
  · rename_i same
    cases same
    simp_all

theorem ofBody_field (field : NameField) (rest : List Char) :
    ofBody line (field.text ++ rest) =
      replacement field.name line :: ofBody (lineAfter line (field.suffix.count '\n')) rest := by
  have plain := field.name_plain
  obtain ⟨c, name, start⟩ : ∃ c name, field.name = c :: name := by
    obtain ⟨c, cs, letters, _⟩ := field.first.exists_start
    exact ⟨c, _, by rw [NameField.name, letters, cons_append]⟩
  have kept : Replacement.withoutMarker (Text.trim field.name) = field.name := by
    rw [Text.trim_of_visible fun d member => (plain d member).2]
    exact Replacement.withoutMarker_of_not_mem fun member => (plain _ member).1.2.2.2.1 rfl
  have breaks : Replacement.lineBreaks (field.name ++ field.suffix) = field.suffix.count '\n' := by
    rw [Replacement.lineBreaks, count_append,
      count_eq_zero.mpr fun member => (plain _ member).1.2.2.2.2 rfl, Nat.zero_add]
  have single : ∀ more, field.name ++ (field.suffix ++ '\x7d' :: rest) ≠ '\x7b' :: more := by
    intro more same
    rw [start] at same
    cases same
    exact (plain _ (by rw [start]; exact mem_cons_self)).1.1 (by decide)
  have body : field.text ++ rest = '\x7b' :: (field.name ++ (field.suffix ++ '\x7d' :: rest)) := by
    simp [NameField.text]
  rw [body, ofBody_replacement (Replacement.scan_field field rest) single]
  · rw [kept, breaks]
  · rw [kept, start]
    simp

theorem ofBody_other {c : Char} (opening : c ≠ '\x7b') (closing : c ≠ '\x7d') (rest : List Char) :
    ofBody line (c :: rest) = consChar c (ofBody (if c = '\n' then lineAfter line 1 else line) rest) := by
  rw [ofBody.eq_def]
  split <;> simp_all

theorem ofBody_escaped (low : line < 0x10000000000000000) (text rest : List Char) :
    ofBody line (escaped text ++ rest) = text.foldr consChar (ofBody (lineAfter line (text.count '\n')) rest) := by
  induction text generalizing line with
  | nil =>
    have here : lineAfter line 0 = line := lineAfter_of_lt low
    simp [escaped, here]
  | cons c text ih =>
    have later : escaped (c :: text) ++ rest =
        (if c = '\x7b' ∨ c = '\x7d' then [c, c] else [c]) ++ (escaped text ++ rest) := by simp [escaped]
    rw [later, foldr_cons]
    by_cases opening : c = '\x7b'
    · subst opening
      rw [if_pos (.inl rfl), count_cons_of_ne (by decide), ← ih low]
      simp [ofBody]
    by_cases closing : c = '\x7d'
    · subst closing
      rw [if_pos (.inr rfl), count_cons_of_ne (by decide), ← ih low]
      simp [ofBody]
    · rw [if_neg (by simp [opening, closing]), singleton_append, ofBody_other opening closing]
      by_cases ends : c = '\n'
      · subst ends
        rw [if_pos rfl, ih (lineAfter_lt line 1), lineAfter_lineAfter, count_cons_self, Nat.add_comm]
      · rw [if_neg ends, ih low, count_cons_of_ne ends]

theorem foldr_consChar {text : List Char} (some : text ≠ []) {pieces : List Piece}
    (other : ∀ next more, pieces ≠ literal next :: more) : text.foldr consChar pieces = literal text :: pieces := by
  induction text with
  | nil => exact absurd rfl some
  | cons c text ih =>
    cases text with
    | nil =>
      rw [foldr_cons, foldr_nil]
      unfold consChar
      split
      · exact absurd rfl (other _ _)
      · rfl
    | cons d text =>
      rw [foldr_cons, ih (by simp)]
      rfl

end Piece

namespace FormattedPart

theorem ofBody_written {parts : List (FormattedPart NameField)} (alternating : Alternating parts) {line : Nat}
    (low : line < 0x10000000000000000) : Piece.ofBody line (parts.flatMap written) = pieces line parts := by
  induction parts generalizing line with
  | nil => simp [Piece.ofBody, pieces]
  | cons part rest ih =>
    cases part with
    | value field =>
      rw [flatMap_cons, written, Piece.ofBody_field, ih alternating (lineAfter_lt _ _), pieces]
    | literal text =>
      obtain ⟨some, apart, later⟩ := alternating
      have filled : text.toList ≠ [] := by simpa using some
      rw [flatMap_cons, written, Piece.ofBody_escaped low, ih later (lineAfter_lt _ _), pieces]
      refine Piece.foldr_consChar filled fun next more same => ?_
      cases rest with
      | nil => cases same
      | cons part rest =>
        cases part with
        | literal other => exact apart other rest rfl
        | value field => cases same

end FormattedPart

namespace Scanner

theorem breaks_attributes (words : List Identifier) : Breaks (NameField.attributes words) := by
  intro c first
  cases words with
  | nil => cases first
  | cons word words =>
    cases first
    decide

variable {line : Nat} (low : line < 0x10000000000000000)

include low

theorem tokens_word (word : Identifier) {rest : List Char} (breaks : Breaks rest) (content : Bool) :
    (within line [0] (word.text.toList ++ rest) content 0).tokens =
      ⟨.identifier, word.text, line⟩ :: (within line [0] rest true 0).tokens := by
  obtain ⟨c, cs, letters, _, visible⟩ := word.exists_start
  have ahead : (word.text.toList ++ rest).dropWhile isIndentChar = c :: (cs ++ rest) := by
    rw [letters, cons_append, dropWhile_cons_of_neg (by simp [visible.1])]
  have taken : Steps (within line [0] (word.text.toList ++ rest) content 0) (some _) _ :=
    .unit rfl (by simp [within]) ahead (visible.2 _)
  rw [lexeme_word (letters ▸ word.isWord) breaks, ← letters, String.ofList_toList, word.isFree] at taken
  rw [tokens_of_some taken.step_eq (by simp)]
  have here : lineAfter line 0 = line := lineAfter_of_lt low
  simp [within, here, depthAfter]

theorem tokens_point (word : Identifier) (rest : List Char) :
    (within line [0] ('.' :: (word.text.toList ++ rest)) true 0).tokens =
      ⟨.operator, ".", line⟩ :: (within line [0] (word.text.toList ++ rest) true 0).tokens := by
  obtain ⟨c, cs, letters, start, _⟩ := word.exists_start
  have digit := not_isDigit_of_word start
  have other : c ≠ '.' := by
    rintro rfl
    cases start
  have unit : lexeme '.' (c :: (cs ++ rest)) = ⟨.operator, ['.'], 0, c :: (cs ++ rest)⟩ := by
    have none : longOperators.find? (fun symbol => symbol.toList.isPrefixOf ('.' :: c :: (cs ++ rest))) = none := by
      simp [longOperators, Ne.symm other]
    unfold lexeme symbolLexeme
    rw [if_neg (by decide), if_neg (by simp [digit]), if_neg (by decide), none]
    rfl
  rw [letters, cons_append]
  have taken : Steps (within line [0] ('.' :: c :: (cs ++ rest)) true 0) (some _) _ :=
    .unit rfl (by simp [within]) rfl rfl
  rw [unit] at taken
  rw [tokens_of_some taken.step_eq (by simp)]
  have here : lineAfter line 0 = line := lineAfter_of_lt low
  simp [within, here, depthAfter]

omit low in
theorem tokens_ended : (within line [0] [] true 0).tokens = [⟨.newline, "\n", line⟩, ⟨.endOfInput, "", line⟩] := by
  have first : Steps (within line [0] [] true 0) (some _) _ := .lastBreak rfl (by simp [within]) rfl rfl
  have second : Steps (within line [0] [] false 0) (some _) _ := .ended rfl (by simp [within]) rfl rfl (by simp [within])
  rw [tokens_of_some first.step_eq (by simp)]
  exact congrArg _ (tokens_of_end second.step_eq rfl)

theorem tokens_attributes (words : List Identifier) :
    (within line [0] (NameField.attributes words) true 0).tokens =
      NameField.attributeTokens line words ++ [⟨.newline, "\n", line⟩, ⟨.endOfInput, "", line⟩] := by
  induction words with
  | nil => exact tokens_ended
  | cons word words ih =>
    have split : NameField.attributes (word :: words) =
        '.' :: (word.text.toList ++ NameField.attributes words) := flatMap_cons
    rw [split, tokens_point low, tokens_word low word (breaks_attributes words), ih]
    rfl

end Scanner

theorem Token.ofText_name {line : Nat} (low : line < 0x10000000000000000) (field : NameField) :
    ofText (String.ofList field.name) line =
      field.tokens line ++ [⟨.newline, "\n", line⟩, ⟨.endOfInput, "", line⟩] := by
  obtain ⟨c, cs, letters, _, visible⟩ := field.first.exists_start
  have opened : (Scanner.start field.name line).openLine = Scanner.within line [0] field.name false 0 := by
    rw [NameField.name, letters, cons_append]
    unfold Scanner.openLine
    have kept : ∀ text, List.dropWhile isIndentChar (c :: text) = c :: text := fun text =>
      dropWhile_cons_of_neg (by simp [visible.1])
    have none : ∀ text, List.takeWhile isIndentChar (c :: text) = [] := fun text =>
      takeWhile_cons_of_neg (by simp [visible.1])
    simp [Scanner.start, kept, none, visible.2, leadingColumn, Scanner.within]
  have taken : Scanner.Steps (Scanner.start field.name line) none _ := .opened rfl rfl rfl
  rw [opened] at taken
  rw [ofText, String.toList_ofList, Scanner.tokens_of_none taken.step_eq, NameField.name,
    Scanner.tokens_word low field.first (Scanner.breaks_attributes _), Scanner.tokens_attributes low]
  rfl

namespace Parser

variable {base : Cursor} {expr : Precedence → Parser Expr} {line : Nat}

theorem many_attributes (ends : base.current.kind = .newline) (words : List Identifier) :
    many (tail? expr .lowest) (base.push (NameField.attributeTokens line words)) =
      .ok (words.map fun word => .attribute word.text) base := by
  induction words with
  | nil =>
    refine Parser.many_none ?_
    rw [NameField.attributeTokens, flatMap_nil, Cursor.push_nil]
    unfold tail?
    simp [Continuation.ofTokens, ends]
  | cons word words ih =>
    have step : tail? expr .lowest (base.push (⟨.operator, ".", line⟩ :: ⟨.identifier, word.text, line⟩ ::
        NameField.attributeTokens line words)) =
        .ok (some (.attribute word.text)) (base.push (NameField.attributeTokens line words)) := by
      rw [run_tail? rfl (by decide)]
      simp [tail, expectIdentifier]
    refine (Parser.many_some step ?_).trans ?_
    · simp only [Cursor.size_push, length_cons]
      omega
    · rw [run_map, ih]
      rfl

theorem run_name (depth : Nat) (field : NameField) (ends : base.current.kind = .newline) :
    expressionList (expression (depth + 1)) (base.push (field.tokens line)) = .ok (field.expr line) base := by
  have whole : expression (depth + 1) .lowest (base.push (field.tokens line)) = .ok (field.expr line) base := by
    have first : operand (expression depth) (base.push (field.tokens line)) =
        .ok ⟨line, .identifier field.first.text⟩ (base.push (NameField.attributeTokens line field.others)) := by
      simp [operand, atom, NameField.tokens]
    have chain : ∀ (words : List Identifier) (object : Expr), object.line = line →
        (words.map fun word => Tail.attribute word.text).foldl Expr.extend object =
          words.foldl (fun object word => ⟨line, .attribute object word.text⟩) object := by
      intro words
      induction words with
      | nil => exact fun _ _ => rfl
      | cons word words ih =>
        rintro object rfl
        exact ih _ rfl
    simp [expression, operators, first, many_attributes ends, Token.isOperator, ends, chain, NameField.expr]
  simp [expressionList, whole, Token.isDelimiter, ends]

theorem replacement_name (depth : Nat) (field : NameField) (low : line < 0x10000000000000000) (cursor : Cursor) :
    replacement (expression (depth + 1)) (String.ofList field.name) line cursor = .ok (field.expr line) cursor := by
  obtain ⟨base, rest, _, start⟩ := Cursor.exists_push (Token.ofText_name low field)
  have ends : base.current.kind = .newline := by
    rw [Cursor.current, rest]
    rfl
  have whole : wholeText (expression (depth + 1)) (base.push (field.tokens line)) = .ok (field.expr line) base := by
    simp [wholeText, run_name depth field ends, ends]
  unfold replacement apart
  rw [← start, whole]
  rfl

/-- Literals and dotted names that are written as the body of a formatted string are read back from it. The rest of
    each field is dropped. -/
theorem mapM_formattedPart_written (depth : Nat) {parts : List (FormattedPart NameField)}
    (alternating : FormattedPart.Alternating parts) {line : Nat} (low : line < 0x10000000000000000) (cursor : Cursor) :
    (Piece.ofBody line (parts.flatMap FormattedPart.written)).mapM (formattedPart (expression (depth + 1))) cursor =
      .ok (FormattedPart.readFrom line parts) cursor := by
  rw [FormattedPart.ofBody_written alternating low]
  clear alternating
  induction parts generalizing line with
  | nil => rfl
  | cons part rest ih =>
    cases part with
    | literal text =>
      rw [FormattedPart.pieces, mapM_cons, FormattedPart.readFrom]
      simp [formattedPart, ih (lineAfter_lt _ _)]
    | value field =>
      rw [FormattedPart.pieces, mapM_cons, FormattedPart.readFrom]
      simp [formattedPart, replacement_name depth field low, ih (lineAfter_lt _ _)]

/-- The body of `f"a{{{x.y!r:>8}}}"`, in which braces of both kinds meet a field. -/
def bracedParts : List (FormattedPart NameField) :=
  [.literal "a\x7b", .value ⟨⟨"x", by decide, by decide⟩, [⟨"y", by decide, by decide⟩], some 'r', some ['>', '8'],
    by rintro c ⟨⟩; decide, by simp [Replacement.marks]⟩, .literal "\x7d"]

theorem mapM_formattedPart_written_braced :
    FormattedPart.Alternating bracedParts ∧
    bracedParts.flatMap FormattedPart.written = "a\x7b\x7b\x7bx.y!r:>8\x7d\x7d\x7d".toList ∧
    (Piece.ofBody 3 (bracedParts.flatMap FormattedPart.written)).mapM (formattedPart (expression (nestingLimit - 1)))
        (.ofTokens []) =
      .ok [.literal "a\x7b", .value ⟨3, .attribute ⟨3, .identifier "x"⟩ "y"⟩, .literal "\x7d"] (.ofTokens []) := by
  have alternating : FormattedPart.Alternating bracedParts := by simp [FormattedPart.Alternating, bracedParts]
  exact ⟨alternating, by decide, mapM_formattedPart_written (nestingLimit - 2) alternating (by decide) (.ofTokens [])⟩

end Parser

end SourceAudit

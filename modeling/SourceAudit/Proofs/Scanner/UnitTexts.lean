import SourceAudit.Proofs.Scanner.Stretches

open List

namespace SourceAudit.Token

def operators : List String := longOperators ++ operatorChars.map String.singleton

structure IsLongestOperator (text : List Char) (symbol : String) : Prop where
  known : symbol ∈ operators
  starts : symbol.toList <+: text
  longest : ∀ other ∈ operators, other.toList <+: text → other.length ≤ symbol.length

theorem longOperators_sorted : longOperators.Pairwise (fun symbol later => later.length ≤ symbol.length) := by
  decide

theorem longOperators_length : ∀ symbol ∈ longOperators, 1 ≤ symbol.length := by decide

theorem mem_operators {symbol : String} :
    symbol ∈ operators ↔ symbol ∈ longOperators ∨ ∃ c ∈ operatorChars, String.singleton c = symbol := by
  simp [operators]

theorem longOperator_longest {symbol : String} {text : List Char}
    (found : longOperators.find? (fun symbol => symbol.toList.isPrefixOf text) = some symbol) :
    IsLongestOperator text symbol := by
  obtain ⟨starts, earlier, later, table, passed⟩ := List.find?_eq_some_iff_append.mp found
  have member := mem_of_find?_eq_some found
  refine ⟨mem_operators.mpr (.inl member), isPrefixOf_iff_prefix.mp starts, ?_⟩
  intro other known starts'
  rcases mem_operators.mp known with long | ⟨d, _, rfl⟩
  · -- the table is sorted by length, and the entries before the one that was found do not fit
    have sorted := longOperators_sorted
    rw [table] at long sorted
    rcases mem_append.mp long with before | here
    · have fails := passed other before
      rw [List.isPrefixOf_iff_prefix.mpr starts'] at fails
      cases fails
    · rcases mem_cons.mp here with rfl | after
      · exact Nat.le_refl _
      · exact (pairwise_cons.mp (pairwise_append.mp sorted).2.1).1 other after
  · rw [String.length_singleton]
    exact longOperators_length symbol member

theorem operatorChar_longest {c : Char} {rest : List Char} (known : c ∈ operatorChars)
    (none : longOperators.find? (fun symbol => symbol.toList.isPrefixOf (c :: rest)) = none) :
    IsLongestOperator (c :: rest) (String.ofList [c]) := by
  refine ⟨mem_operators.mpr (.inr ⟨c, known, String.singleton_eq_ofList⟩), ?_, ?_⟩
  · rw [String.toList_ofList]
    exact ⟨rest, rfl⟩
  · intro other known' starts
    rcases mem_operators.mp known' with long | ⟨d, _, rfl⟩
    · exact absurd (List.isPrefixOf_iff_prefix.mpr starts) (List.find?_eq_none.mp none other long)
    · rw [String.length_singleton]
      simp

def Kind.isVerbatim : Kind → Bool
  | keyword | identifier | boolean | none | operator | delimiter => true
  | _ => false

/-- What is `written` in a token of some kind, if `front` is what it takes from `text`. -/
structure WrittenAs (kind : Kind) (written text front : List Char) : Prop where
  verbatim : kind.isVerbatim = true → written = front
  illegal : kind = .illegal → written.head?.any isQuote = false ∨ front.length = 1 → written = front
  operator : kind = .operator → IsLongestOperator text (String.ofList written)

theorem QuoteStyle.read_idle (style : QuoteStyle) {text : List Char}
    (idle : (style.read text).rest.length = text.length) : (style.read text).value = [] := by
  have short := style.read_rest_le
  cases text with
  | nil => rw [read]
  | cons c text =>
    rw [read.eq_def] at idle ⊢
    dsimp only at idle ⊢
    grind [QuotedText.push, QuotedText.nextLine]

theorem openQuote_idle {verbatim : Bool} {quote : Char} {text : List Char}
    (idle : (openQuote verbatim quote text).2.length = text.length) :
    (openQuote verbatim quote text).1.opening = [quote] := by
  unfold openQuote at idle ⊢
  split
  · rename_i opens
    rw [if_pos opens] at idle
    have fits := (List.isPrefixOf_iff_prefix.mp opens).length_le
    simp only [length_cons, length_nil, length_drop] at fits idle
    omega
  · rfl

theorem quotedLexeme_idle {marks : List Char} {quote : Char} {text : List Char}
    (unclosed : (quotedLexeme marks quote text).kind = .illegal)
    (idle : (quotedLexeme marks quote text).rest.length = text.length) :
    (quotedLexeme marks quote text).text = [quote] := by
  have opened := openQuote_length_le (marks.contains 'f' || marks.contains 'r') quote text
  have alone := @openQuote_idle (marks.contains 'f' || marks.contains 'r') quote text
  rw [quotedLexeme_rest] at idle
  unfold quotedLexeme at unclosed ⊢
  dsimp only at unclosed ⊢
  generalize openQuote (marks.contains 'f' || marks.contains 'r') quote text = found at *
  have body := found.1.read_rest_le found.2
  split
  · rename_i closed
    rw [if_pos closed] at unclosed
    dsimp only at unclosed
    split at unclosed <;> cases unclosed
  · rw [alone (by omega), found.1.read_idle (by omega)]
    rfl

theorem quotedLexeme_writtenAs (marks : List Char) {quote : Char} (quoted : isQuote quote = true)
    {before text front : List Char}
    (whole : front ++ (quotedLexeme marks quote text).rest = before ++ quote :: text) :
    WrittenAs (quotedLexeme marks quote text).kind (quotedLexeme marks quote text).text (before ++ quote :: text)
      front := by
  rcases quotedLexeme_kind marks quote text with kind | kind | ⟨kind, head⟩
  · constructor <;> rw [kind] <;> intro other <;> cases other
  · constructor <;> rw [kind] <;> intro other <;> cases other
  · refine ⟨fun other => ?_, fun _ single => ?_, fun other => ?_⟩
    · rw [kind] at other
      cases other
    · have single : front.length = 1 := by
        rcases single with plain | single
        · simp [head, quoted] at plain
        · exact single
      have short := Scanner.quotedLexeme_rest_le marks quote text
      have lengths := congrArg List.length whole
      simp only [length_append, length_cons] at lengths
      have first : before = [] := length_eq_zero_iff.mp (by omega)
      subst first
      rw [quotedLexeme_idle kind (by omega)]
      obtain ⟨c, rfl⟩ := length_eq_one_iff.mp single
      rw [(List.cons.inj whole).1]
    · rw [kind] at other
      cases other

theorem lexeme_writtenAs {c : Char} {text front : List Char} (whole : front ++ (lexeme c text).rest = c :: text) :
    WrittenAs (lexeme c text).kind (lexeme c text).text (c :: text) front := by
  have form := lexeme_lexed c text
  generalize lexeme c text = unit at form whole
  cases form with
  | quoted parts _ opens =>
    rw [← parts] at whole ⊢
    exact quotedLexeme_writtenAs _ opens whole
  | number =>
    rcases numberLexeme_kind (c :: text) with kind | kind <;>
      constructor <;> rw [kind] <;> intro other <;> cases other
  | @word letters rest parts _ =>
    have same := append_cancel_right (parts.trans whole.symm)
    refine ⟨fun _ => same, fun _ _ => same, fun operator => ?_⟩
    rcases kindOfWord_cases (String.ofList letters) with kind | kind | kind | kind <;>
      rw [kind] at operator <;> cases operator
  | symbol parts found =>
    have same := append_cancel_right (parts.trans whole.symm)
    refine ⟨fun _ => same, fun _ _ => same, fun _ => ?_⟩
    rw [String.ofList_toList]
    exact longOperator_longest found
  | single _ alone one =>
    have whole : front ++ text = [c] ++ text := whole
    have same := (append_cancel_right whole).symm
    refine ⟨fun _ => same, fun _ _ => same, fun operator => ?_⟩
    rcases one with rfl | ⟨_, known⟩ | rfl
    · cases operator
    · exact operatorChar_longest known alone
    · cases operator

end SourceAudit.Token

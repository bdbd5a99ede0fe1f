import Mathlib.Data.List.Find
import SourceAudit.Proofs.Scanner.Stretches

open List

namespace SourceAudit.Token

variable {text left back after : List Char} {p : Char → Bool}

theorem dropWhile_visible (visible : text.dropWhile p ≠ []) (after : List Char) :
    (text ++ after).dropWhile p = text.dropWhile p ++ after := by
  rw [List.dropWhile_append, if_neg (by simpa using visible)]

theorem takeWhile_visible (visible : text.dropWhile p ≠ []) (after : List Char) :
    (text ++ after).takeWhile p = text.takeWhile p := by
  have parts := congrArg List.length (takeWhile_append_dropWhile (p := p) (l := text))
  have some := length_pos_iff.mpr visible
  rw [length_append] at parts
  rw [List.takeWhile_append, if_neg (by omega)]

def EndsLine (text : List Char) : Prop := text.getLast? = some '\n'
deriving Decidable

namespace EndsLine

variable {c : Char}

theorem ne_nil (ends : EndsLine text) : text ≠ [] := by
  rintro rfl
  cases ends

theorem suffix {rest : List Char} (ends : EndsLine text) (part : rest <:+ text) (some : rest ≠ []) :
    EndsLine rest := by
  obtain ⟨front, rfl⟩ := part
  unfold EndsLine at ends
  rw [List.getLast?_append] at ends
  cases last : rest.getLast? with
  | none => exact absurd (List.getLast?_eq_none_iff.mp last) some
  | some c =>
    rw [last] at ends
    exact last.trans ends

theorem of_suffix {rest : List Char} (ends : EndsLine rest) (part : rest <:+ text) : EndsLine text := by
  obtain ⟨front, rfl⟩ := part
  unfold EndsLine at ends ⊢
  rw [List.getLast?_append, ends]
  rfl

theorem tail (ends : EndsLine (c :: text)) (inner : c ≠ '\n') : EndsLine text := by
  refine ends.suffix (suffix_cons c _) ?_
  rintro rfl
  cases ends
  exact inner rfl

theorem cons (ends : EndsLine text) : EndsLine (c :: text) := ends.of_suffix (suffix_cons c _)

theorem dropWhile_ne_nil (ends : EndsLine text) (stops : p '\n' = false) : text.dropWhile p ≠ [] := by
  intro none
  have all := dropWhile_eq_nil_iff.mp none
  have member : '\n' ∈ text := mem_of_getLast? ends
  have passes := all '\n' member
  rw [stops] at passes
  cases passes

theorem dropWhile (ends : EndsLine text) (stops : p '\n' = false) : EndsLine (text.dropWhile p) :=
  ends.suffix (dropWhile_suffix p) (ends.dropWhile_ne_nil stops)

theorem dropWhile_append (ends : EndsLine text) (stops : p '\n' = false) :
    (text ++ back).dropWhile p = text.dropWhile p ++ back :=
  dropWhile_visible (ends.dropWhile_ne_nil stops) back

theorem takeWhile_append (ends : EndsLine text) (stops : p '\n' = false) :
    (text ++ back).takeWhile p = text.takeWhile p :=
  takeWhile_visible (ends.dropWhile_ne_nil stops) back

end EndsLine

def gapChars : List Char := [' ', '\t', '\x0c', '\r', '\n']

-- the test runs over the list, since all characters together can be enumerated as well
theorem forall_gapChars {p : Char → Prop} [DecidablePred p] (holds : gapChars.all (fun c => decide (p c)) = true) :
    ∀ c ∈ gapChars, p c :=
  fun c member => of_decide_eq_true (all_eq_true.mp holds c member)

theorem isIdentifierChar_of_gapChars : ∀ c ∈ gapChars, Text.isIdentifierChar c = false := forall_gapChars (by decide)

theorem isQuote_gap {c : Char} (quoted : isQuote c = true) : c ∉ gapChars := by
  have plain : ∀ c ∈ gapChars, isQuote c = false := forall_gapChars (by decide)
  intro member
  rw [plain c member] at quoted
  cases quoted

def Gap (after : List Char) : Prop := ∀ c ∈ after.head?, c ∈ gapChars

namespace Gap

theorem nil : Gap [] := by
  rintro c ⟨⟩

theorem head_any (gap : Gap after) (stops : ∀ c ∈ gapChars, p c = false) : after.head?.any p = false := by
  cases after with
  | nil => rfl
  | cons c after => exact stops c (gap c rfl)

theorem dropWhile_self (gap : Gap after) (stops : ∀ c ∈ gapChars, p c = false) : after.dropWhile p = after := by
  cases after with
  | nil => rfl
  | cons c after => simp [stops c (gap c rfl)]

theorem takeWhile_append (gap : Gap after) (stops : ∀ c ∈ gapChars, p c = false) (text : List Char) :
    (text ++ after).takeWhile p = text.takeWhile p := by
  induction text with
  | nil =>
    cases after with
    | nil => rfl
    | cons c after => simp [stops c (gap c rfl)]
  | cons c text ih =>
    rw [cons_append, takeWhile_cons, takeWhile_cons, ih]

end Gap

def Divided (text after : List Char) : Prop := EndsLine text ∨ Gap after

namespace Divided

theorem gap (divided : Divided [] after) : Gap after := by
  rcases divided with ends | gap
  · cases ends
  · exact gap

theorem of_suffix (divided : Divided left after) (part : left <:+ text) : Divided text after :=
  divided.imp_left fun ends => ends.of_suffix part

theorem tail {c : Char} (divided : Divided (c :: text) after) (inner : c ≠ '\n') : Divided text after :=
  divided.imp_left fun ends => ends.tail inner

theorem isPrefixOf_append {word : List Char} (divided : Divided text after) (inner : ∀ c ∈ word, c ∉ gapChars) :
    word.isPrefixOf (text ++ after) = word.isPrefixOf text := by
  induction word generalizing text with
  | nil => simp
  | cons d word ih =>
    have other := inner d mem_cons_self
    cases text with
    | nil =>
      cases after with
      | nil => rfl
      | cons c after =>
        have differ : d ≠ c := by
          rintro rfl
          exact other (divided.gap d rfl)
        change (d == c && _) = false
        rw [beq_false_of_ne differ]
        rfl
    | cons c text =>
      change (d == c && word.isPrefixOf (text ++ after)) = (d == c && word.isPrefixOf text)
      by_cases same : d = c
      · subst same
        have below : d ≠ '\n' := by
          rintro rfl
          exact other (by decide)
        rw [ih (divided.tail below) fun e member => inner e (mem_cons_of_mem d member)]
      · rw [beq_false_of_ne same]
        rfl

theorem dropWhile_append (divided : Divided text after) (stops : ∀ c ∈ gapChars, p c = false) :
    (text ++ after).dropWhile p = text.dropWhile p ++ after := by
  by_cases visible : text.dropWhile p = []
  · rcases divided with ends | gap
    · exact absurd visible (ends.dropWhile_ne_nil (stops '\n' (by decide)))
    · rw [dropWhile_append_of_pos (dropWhile_eq_nil_iff.mp visible), gap.dropWhile_self stops, visible]
      rfl
  · exact dropWhile_visible visible after

theorem takeWhile_append (divided : Divided text after) (stops : ∀ c ∈ gapChars, p c = false) :
    (text ++ after).takeWhile p = text.takeWhile p := by
  rcases divided with ends | gap
  · exact ends.takeWhile_append (stops '\n' (by decide))
  · exact gap.takeWhile_append stops text

end Divided

theorem eq_nil_of_cut {rest : List Char} (short : rest.length ≤ back.length) (same : rest = left ++ back) :
    left = [] := by
  rw [same, length_append] at short
  exact length_eq_zero_iff.mp (by omega)

theorem takeWhile_cut (ends : (text ++ back).dropWhile p = left ++ back) :
    text.takeWhile p = (text ++ back).takeWhile p ∧ text.dropWhile p = left := by
  by_cases blank : text.dropWhile p = []
  · have all : ∀ c ∈ text, p c = true := dropWhile_eq_nil_iff.mp blank
    rw [dropWhile_append_of_pos all] at ends
    have none := eq_nil_of_cut (dropWhile_sublist p).length_le ends
    rw [none, nil_append] at ends
    have parts := takeWhile_append_dropWhile (p := p) (l := back)
    rw [ends] at parts
    have bare : back.takeWhile p = [] := append_left_eq_self.mp parts
    rw [takeWhile_append_of_pos all, bare, append_nil, blank, none]
    exact ⟨takeWhile_eq_self_iff.mpr all, rfl⟩
  · rw [dropWhile_visible blank] at ends
    exact ⟨(takeWhile_visible blank back).symm, append_cancel_right ends⟩

theorem isPrefixOf_cut {word : List Char} (fits : word.length ≤ text.length)
    (starts : word.isPrefixOf (text ++ back) = true) : word.isPrefixOf text = true := by
  rw [List.isPrefixOf_iff_prefix] at starts ⊢
  exact prefix_of_prefix_length_le starts (prefix_append _ _) fits

theorem isPrefixOf_longer {word : List Char} (starts : word.isPrefixOf text = true) :
    word.isPrefixOf (text ++ back) = true := by
  rw [List.isPrefixOf_iff_prefix] at starts ⊢
  exact starts.trans (prefix_append _ _)

theorem decimalText_idle {isFloat : Bool} (idle : (decimalText isFloat text).rest = text) :
    decimalText isFloat text = ⟨[], isFloat, text⟩ := by
  have length := congrArg List.length idle
  have short := decimalText_rest_le
  rw [decimalText.eq_def] at idle length ⊢
  grind [NumberText.push]

theorem decimalText_gap (gap : Gap after) (isFloat : Bool) : decimalText isFloat after = ⟨[], isFloat, after⟩ := by
  have plain : ∀ c ∈ gapChars, c.isDigit = false ∧ c ≠ '_' ∧ c ≠ '.' ∧ c ≠ 'e' ∧ c ≠ 'E' ∧ c ≠ 'j' ∧ c ≠ 'J' :=
    forall_gapChars (by decide)
  cases after with
  | nil => rfl
  | cons c after =>
    obtain ⟨digit, joint, point, small, large, small', large'⟩ := plain c (gap c rfl)
    exact decimalText_stop _ (by simp [digit]) joint (fun whole => point whole.1) (not_or.mpr ⟨small, large⟩)
      (not_or.mpr ⟨small', large'⟩)

theorem numberText_decimal {c : Char} {cs : List Char} (plain : c ≠ '0') :
    numberText (c :: cs) = decimalText false (c :: cs) := by
  rw [numberText.eq_def]
  split
  · rename_i same
    injection same with zero
    exact absurd zero plain
  · rfl

/-- An exponent that leaves all of what comes next has no sign and no digit behind it. -/
theorem exponent_bare {isFloat : Bool} {c : Char} (exponent : c = 'e' ∨ c = 'E')
    (long : back.length ≤ (decimalText isFloat (c :: back)).rest.length) :
    back.head?.any (fun d => isSign d || d.isDigit) = false := by
  cases back with
  | nil => rfl
  | cons d ds =>
    have short := decimalText_rest_le true ds
    rw [List.head?_cons, Option.any_some, Bool.or_eq_false_iff, ← Bool.not_eq_true, ← Bool.not_eq_true]
    constructor
    · intro sign
      rw [decimalText_signed _ exponent sign] at long
      simp only [NumberText.push, length_cons] at long
      omega
    · intro digit
      rw [decimalText_exponent _ exponent digit, decimalText_digit _ digit] at long
      simp only [NumberText.push, length_cons] at long
      omega

/-- A point is cut off from a second one only if nothing else of the text is left. -/
theorem point_apart {cs : List Char} (apart : cs.head? ≠ some '.')
    (ends : (decimalText false ('.' :: (cs ++ back))).rest = left ++ back)
    (single : left = ['.'] → back.head? ≠ some '.') : (cs ++ back).head? ≠ some '.' := by
  cases cs with
  | cons d ds => exact apart
  | nil =>
    intro double
    have stays : decimalText false ('.' :: back) = ⟨[], false, '.' :: back⟩ :=
      decimalText_stop _ (by decide) (by decide) (fun whole => whole.2.2 double) (by decide) (by decide)
    rw [nil_append, stays] at ends
    have last : left ++ back = ['.'] ++ back := ends.symm
    exact single (append_cancel_right last) double

section Units

variable (divided : Divided left after)

include divided

theorem decimalText_divided {isFloat : Bool} (ends : (decimalText isFloat (text ++ back)).rest = left ++ back)
    (single : left = ['.'] → back.head? ≠ some '.') :
    decimalText isFloat (text ++ after) = { decimalText isFloat (text ++ back) with rest := left ++ after } := by
  fun_induction decimalText isFloat text with
  | case1 isFloat =>
    have none := eq_nil_of_cut (decimalText_rest_le isFloat back) ends
    subst none
    rw [decimalText_idle ends]
    exact decimalText_gap divided.gap isFloat
  | case2 isFloat c cs digit ih =>
    simp only [cons_append, decimalText_digit _ digit] at ends ⊢
    rw [ih ends]
    rfl
  | case3 isFloat cs digit ih =>
    simp only [cons_append, decimalText_separator] at ends ⊢
    exact ih ends
  | case4 isFloat c cs digit joint whole ih =>
    obtain ⟨rfl, rfl, apart⟩ := whole
    have here := point_apart apart ends single
    rw [cons_append, decimalText_point here] at ends
    have there : (cs ++ after).head? ≠ some '.' := by
      cases cs with
      | cons d ds => exact apart
      | nil =>
        have none := eq_nil_of_cut (decimalText_rest_le true back) ends
        subst none
        intro double
        exact absurd (divided.gap '.' double) (by decide)
    rw [cons_append, cons_append, decimalText_point here, decimalText_point there, ih ends]
    rfl
  | case5 isFloat c digit joint exponent d ds sign whole ih =>
    simp only [cons_append, decimalText_signed _ exponent sign] at ends ⊢
    rw [ih ends]
    rfl
  | case6 isFloat c digit joint exponent d ds sign digit' whole ih =>
    simp only [cons_append, decimalText_exponent _ exponent digit'] at ends ih ⊢
    rw [ih ends]
    rfl
  | case7 isFloat c digit joint exponent d ds sign digit' whole =>
    have bare : (isSign d || d.isDigit) = false := by simp [sign, digit']
    have stays : ∀ more, decimalText isFloat (c :: d :: (ds ++ more)) = ⟨[], isFloat, c :: d :: (ds ++ more)⟩ :=
      fun more => decimalText_bare _ exponent bare
    simp only [cons_append, stays] at ends ⊢
    obtain rfl : c :: d :: ds = left := append_cancel_right ends
    rfl
  | case8 isFloat c digit joint exponent whole =>
    rw [cons_append, nil_append] at ends
    have here := exponent_bare exponent (ends ▸ (suffix_append left back).length_le)
    rw [decimalText_bare _ exponent here] at ends
    have last : left = [c] := append_cancel_right ends.symm
    subst last
    have gap := (divided.tail (by rcases exponent with rfl | rfl <;> decide)).gap
    have there := gap.head_any (p := fun d => isSign d || d.isDigit) (forall_gapChars (by decide))
    rw [cons_append, cons_append, nil_append, nil_append, decimalText_bare _ exponent here,
      decimalText_bare _ exponent there]
  | case9 isFloat c cs digit joint whole exponent imaginary =>
    simp only [cons_append, decimalText_imaginary _ imaginary] at ends ⊢
    rw [append_cancel_right ends]
  | case10 isFloat c cs digit joint whole exponent imaginary =>
    have stays : ∀ more, decimalText isFloat (c :: (cs ++ more)) = ⟨[], isFloat, c :: (cs ++ more)⟩ := by
      intro more
      refine decimalText_stop _ digit joint ?_ exponent imaginary
      rintro ⟨rfl, plain, next⟩
      refine whole ⟨rfl, plain, fun double => next ?_⟩
      rw [List.head?_append, double]
      rfl
    simp only [cons_append, stays] at ends ⊢
    obtain rfl : c :: cs = left := append_cancel_right ends
    rfl

theorem takeWhile_divided (stops : ∀ c ∈ gapChars, p c = false) (ends : (text ++ back).dropWhile p = left ++ back) :
    (text ++ after).takeWhile p = (text ++ back).takeWhile p ∧ (text ++ after).dropWhile p = left ++ after := by
  obtain ⟨taken, rest⟩ := takeWhile_cut ends
  have parts := divided.of_suffix (rest ▸ dropWhile_suffix p)
  rw [parts.takeWhile_append stops, parts.dropWhile_append stops, taken, rest]
  exact ⟨rfl, rfl⟩

theorem numberText_divided {c : Char} (ends : (numberText (c :: (text ++ back))).rest = left ++ back)
    (single : left = ['.'] → back.head? ≠ some '.') :
    numberText (c :: (text ++ after)) = { numberText (c :: (text ++ back)) with rest := left ++ after } := by
  have decimal : (decimalText false (c :: (text ++ back))).rest = left ++ back →
      decimalText false (c :: (text ++ after)) =
        { decimalText false (c :: (text ++ back)) with rest := left ++ after } := by
    intro ends
    rw [← cons_append] at ends ⊢
    exact decimalText_divided divided ends single
  by_cases zero : c = '0'
  · subst zero
    cases text with
    | nil =>
      have plain : ∀ more : List Char, more.head?.any isRadixMark = false →
          numberText ('0' :: more) = decimalText false ('0' :: more) := by
        intro more starts
        cases more with
        | nil => rfl
        | cons mark more => simp_all [numberText]
      have here : back.head?.any isRadixMark = false := by
        by_contra radix
        cases back with
        | nil => exact radix rfl
        | cons mark back =>
          have short := (dropWhile_sublist (fun c => isHexDigit c || c == '_') (l := back)).length_le
          have long := congrArg List.length ends
          simp_all [numberText]
          omega
      simp only [nil_append, plain back here] at ends decimal ⊢
      have none := eq_nil_of_cut (decimalText_rest_le false back) (decimalText_digit (c := '0') false rfl ▸ ends)
      subst none
      rw [plain after (divided.gap.head_any (forall_gapChars (by decide)))]
      exact decimal ends
    | cons mark text =>
      by_cases radix : isRadixMark mark = true
      · simp only [cons_append, numberText, radix, ↓reduceIte] at ends ⊢
        obtain ⟨digits, rest⟩ := takeWhile_divided divided (forall_gapChars (by decide)) ends
        rw [digits, rest]
      · simp only [cons_append, numberText, radix] at ends ⊢
        exact decimal ends
  · rw [numberText_decimal zero] at ends ⊢
    rw [numberText_decimal zero]
    exact decimal ends

end Units

namespace QuoteStyle

variable {style : QuoteStyle}

theorem read_suffix (style : QuoteStyle) (text : List Char) : (style.read text).rest <:+ text := by
  obtain ⟨front, whole, _⟩ := style.read_taken text
  exact ⟨front, whole⟩

theorem opening_gap (quoted : style.quote ∉ gapChars) : ∀ c ∈ style.opening, c ∉ gapChars := by
  unfold opening
  split <;> simpa using quoted

theorem close?_append (quoted : style.quote ∉ gapChars) (divided : Divided text after) :
    style.close? (text ++ after) = (style.close? text).map (· ++ after) := by
  unfold close?
  rw [divided.isPrefixOf_append (opening_gap quoted)]
  split
  · rename_i opens
    have fits := (List.isPrefixOf_iff_prefix.mp opens).length_le
    rw [drop_append_of_le_length fits]
    rfl
  · rfl

theorem close?_cut (closes : style.close? (text ++ back) = some (left ++ back)) :
    style.close? text = some left := by
  have parts := close?_eq_some closes
  rw [← append_assoc] at parts
  have whole := append_cancel_right parts
  unfold close?
  rw [whole, if_pos (by simp), drop_left]

theorem close?_longer (closes : style.close? text = some left) (back : List Char) :
    style.close? (text ++ back) = some (left ++ back) := by
  rw [close?_eq_some closes]
  unfold close?
  rw [if_pos (by simp), append_assoc, drop_left]

/-- The quotes that close a literal stand in the text, or it goes on whatever comes after the text. -/
theorem close?_divided (quoted : style.quote ∉ gapChars) (divided : Divided left after) {c : Char} {cs : List Char}
    (none : style.close? (c :: cs) = none) (ends : (style.read (c :: (cs ++ back))).rest = left ++ back) :
    style.close? (c :: (cs ++ back)) = .none ∧ style.close? (c :: (cs ++ after)) = .none := by
  have part : left ++ back <:+ c :: cs ++ back := ends ▸ style.read_suffix _
  have later := close?_append quoted (divided.of_suffix (suffix_append_self_iff.mp part))
  rw [none] at later
  refine ⟨?_, later⟩
  cases found : style.close? (c :: (cs ++ back)) with
  | none => rfl
  | some rest =>
    rw [read_closing found] at ends
    dsimp only at ends
    rw [ends, ← cons_append] at found
    rw [close?_cut found] at none
    cases none

theorem backslash_stops (here : style.close? ('\\' :: back) = none)
    (ends : (style.read ('\\' :: back)).rest = left ++ back)
    (stops : (style.read ('\\' :: back)).closed = true ∨ left ≠ []) : False := by
  cases back with
  | nil =>
    rw [read_backslash here] at stops ends
    rw [append_nil] at ends
    exact stops.elim (by simp) fun some => some ends.symm
  | cons d ds =>
    have short := read_rest_le style ds
    have length := congrArg List.length ends
    by_cases lineBreak : d = '\n'
    · subst lineBreak
      simp only [read_joint here, QuotedText.push, QuotedText.nextLine, length_append, length_cons] at length
      omega
    · simp only [read_escape here lineBreak, QuotedText.push, length_append, length_cons] at length
      omega

theorem read_divided (quoted : style.quote ∉ gapChars) (divided : Divided left after)
    (ends : (style.read (text ++ back)).rest = left ++ back)
    (stops : (style.read (text ++ back)).closed = true ∨ left ≠ []) :
    style.read (text ++ after) = { style.read (text ++ back) with rest := left ++ after } := by
  fun_induction read style text with
  | case1 =>
    obtain ⟨front, whole, last⟩ := style.read_taken ([] ++ back)
    rw [ends] at whole
    have length := congrArg List.length whole
    rw [length_append, length_append, nil_append] at length
    have none : front = [] := length_eq_zero_iff.mp (by omega)
    have none' : left = [] := length_eq_zero_iff.mp (by omega)
    have last := last (stops.resolve_right (absurd none'))
    rw [none] at last
    cases last
  | case2 c cs rest closes =>
    have long : ∀ more, style.read (c :: (cs ++ more)) = ⟨[], 0, true, rest ++ more⟩ :=
      fun more => read_closing (close?_longer closes more)
    simp only [cons_append, long] at ends ⊢
    rw [append_cancel_right ends]
  | case3 cs triple none ih =>
    obtain ⟨here, there⟩ := close?_divided quoted divided none ends
    simp only [cons_append, read_lineBreak here triple, read_lineBreak there triple] at ends stops ⊢
    rw [ih ends stops]
    rfl
  | case4 cs single none =>
    obtain ⟨here, there⟩ := close?_divided quoted divided none ends
    simp only [cons_append, read_lineEnd here single, read_lineEnd there single] at ends ⊢
    obtain rfl : '\n' :: cs = left := append_cancel_right ends
    rfl
  | case5 inner none =>
    exact (backslash_stops (close?_divided quoted divided none ends).1 ends stops).elim
  | case6 ds inner none ih =>
    obtain ⟨here, there⟩ := close?_divided quoted divided none ends
    rw [cons_append] at here there
    simp only [cons_append, read_joint here, read_joint there] at ends stops ⊢
    rw [ih ends stops]
    rfl
  | case7 d ds inner' inner none ih =>
    obtain ⟨here, there⟩ := close?_divided quoted divided none ends
    rw [cons_append] at here there
    simp only [cons_append, read_escape here inner', read_escape there inner'] at ends stops ⊢
    rw [ih ends stops]
    rfl
  | case8 c cs none inner plain ih =>
    obtain ⟨here, there⟩ := close?_divided quoted divided none ends
    simp only [cons_append, read_plain here inner plain, read_plain there inner plain] at ends stops ⊢
    rw [ih ends stops]
    rfl

end QuoteStyle

theorem openQuote_append (verbatim : Bool) {quote : Char} (quoted : quote ∉ gapChars) (divided : Divided text after) :
    openQuote verbatim quote (text ++ after) =
      ((openQuote verbatim quote text).1, (openQuote verbatim quote text).2 ++ after) := by
  unfold openQuote
  rw [divided.isPrefixOf_append (by simpa using quoted)]
  split
  · rename_i opens
    have fits : 2 ≤ text.length := (List.isPrefixOf_iff_prefix.mp opens).length_le
    rw [drop_append_of_le_length fits]
  · rfl

theorem openQuote_cut {verbatim : Bool} {quote : Char}
    (ends : left ++ back <:+ (openQuote verbatim quote (text ++ back)).2) :
    openQuote verbatim quote (text ++ back) =
      ((openQuote verbatim quote text).1, (openQuote verbatim quote text).2 ++ back) := by
  have short := ends.length_le
  rw [length_append] at short
  unfold openQuote at short ⊢
  by_cases triple : [quote, quote].isPrefixOf (text ++ back) = true
  · have whole := (List.isPrefixOf_iff_prefix.mp triple).length_le
    rw [if_pos triple, length_drop, length_append] at short
    rw [length_append] at whole
    have fits : [quote, quote].length ≤ text.length := by
      change 2 ≤ text.length + back.length at whole
      change 2 ≤ text.length
      omega
    have drops : (text ++ back).drop 2 = text.drop 2 ++ back := drop_append_of_le_length fits
    rw [if_pos triple, if_pos (isPrefixOf_cut fits triple), drops]
  · rw [if_neg triple, if_neg fun starts => triple (isPrefixOf_longer starts)]

def wordAlone (text : List Char) : Lexeme :=
  ⟨kindOfWord (String.ofList (text.takeWhile Text.isIdentifierChar)), text.takeWhile Text.isIdentifierChar, 0,
    text.dropWhile Text.isIdentifierChar⟩

theorem wordLexeme_quoted {q : Char} {rest : List Char} (ahead : text.dropWhile Text.isIdentifierChar = q :: rest)
    (opens : (isQuote q && stringPrefixes.contains
      (String.ofList (lowerAscii (text.takeWhile Text.isIdentifierChar)))) = true) :
    wordLexeme text = quotedLexeme (lowerAscii (text.takeWhile Text.isIdentifierChar)) q rest := by
  unfold wordLexeme
  rw [ahead]
  exact if_pos opens

theorem wordLexeme_cases (text : List Char) :
    wordLexeme text = wordAlone text ∨ ∃ q rest, text.dropWhile Text.isIdentifierChar = q :: rest ∧
      (isQuote q && stringPrefixes.contains
        (String.ofList (lowerAscii (text.takeWhile Text.isIdentifierChar)))) = true := by
  unfold wordLexeme wordAlone
  dsimp only
  split
  · rename_i q rest ahead
    split
    · rename_i opens
      exact .inr ⟨q, rest, ahead, opens⟩
    · exact .inl (by rw [ahead])
  · rename_i ahead
    exact .inl (by rw [ahead])

theorem wordLexeme_alone (plain : (text.dropWhile Text.isIdentifierChar).head?.any isQuote = false) :
    wordLexeme text = wordAlone text := by
  refine (wordLexeme_cases text).resolve_right ?_
  rintro ⟨q, rest, ahead, opens⟩
  rw [ahead] at plain
  exact absurd (plain.symm.trans (Bool.and_eq_true_iff.mp opens).1) (by decide)

theorem lexeme_point_ne (digit : back.head?.any Char.isDigit = true) : (lexeme '.' back).rest ≠ back := by
  cases back with
  | nil => cases digit
  | cons d ds =>
    have digit : d.isDigit = true := digit
    have apart : (d :: ds).head? ≠ some '.' := by
      rintro ⟨⟩
      cases digit
    have short := decimalText_rest_le true ds
    have unit : lexeme '.' (d :: ds) = numberLexeme ('.' :: d :: ds) := by
      unfold lexeme
      rw [if_neg (by decide), if_pos (by simp [digit])]
    intro same
    rw [unit, numberLexeme, numberText_decimal (by decide), decimalText_point apart, decimalText_digit _ digit] at same
    have length := congrArg List.length same
    change (decimalText true ds).rest.length = _ at length
    rw [length_cons] at length
    omega

section Units

variable (divided : Divided left after)

include divided

theorem quotedLexeme_divided {marks : List Char} {quote : Char} (quoted : isQuote quote = true)
    (ends : (quotedLexeme marks quote (text ++ back)).rest = left ++ back)
    (stops : (quotedLexeme marks quote (text ++ back)).role = .unclosed → left ≠ []) :
    quotedLexeme marks quote (text ++ after) =
      { quotedLexeme marks quote (text ++ back) with rest := left ++ after } := by
  rw [quotedLexeme_rest] at ends
  rw [quotedLexeme_role marks quoted] at stops
  have outside := isQuote_gap quoted
  have inner := ends ▸ QuoteStyle.read_suffix _ _
  have whole := inner.trans (openQuote_suffix _ _ _)
  have later := openQuote_append (marks.contains 'f' || marks.contains 'r') outside
    (divided.of_suffix (suffix_append_self_iff.mp whole))
  have style := openQuote_quote (marks.contains 'f' || marks.contains 'r') quote text
  unfold quotedLexeme
  dsimp only
  rw [later]
  rw [openQuote_cut inner] at ends stops ⊢
  generalize openQuote (marks.contains 'f' || marks.contains 'r') quote text = opened at ends stops style ⊢
  have closes : (opened.1.read (opened.2 ++ back)).closed = true ∨ left ≠ [] := by
    by_cases closed : (opened.1.read (opened.2 ++ back)).closed = true
    · exact .inl closed
    · exact .inr (stops (if_neg closed))
  dsimp only at ends ⊢
  rw [QuoteStyle.read_divided (style ▸ outside) divided ends closes]
  dsimp only
  split <;> rfl

theorem wordLexeme_divided (ends : (wordLexeme (text ++ back)).rest = left ++ back)
    (stops : (wordLexeme (text ++ back)).role = .unclosed → left ≠ []) :
    wordLexeme (text ++ after) = { wordLexeme (text ++ back) with rest := left ++ after } := by
  cases visible : text.dropWhile Text.isIdentifierChar with
  | cons q rest =>
    have some : text.dropWhile Text.isIdentifierChar ≠ [] := by simp [visible]
    unfold wordLexeme at stops ends ⊢
    simp only [takeWhile_visible some, dropWhile_visible some, visible, cons_append] at stops ends ⊢
    split
    · rename_i opens
      rw [if_pos opens] at stops ends
      exact quotedLexeme_divided divided (Bool.and_eq_true_iff.mp opens).1 ends stops
    · rename_i plain
      rw [if_neg plain] at ends
      obtain rfl : q :: rest = left := append_cancel_right ends
      rfl
  | nil =>
    have same : (text ++ back).dropWhile Text.isIdentifierChar = back.dropWhile Text.isIdentifierChar :=
      dropWhile_append_of_pos (dropWhile_eq_nil_iff.mp visible)
    have short := (dropWhile_sublist Text.isIdentifierChar (l := back)).length_le
    rw [← same] at short
    -- a literal would begin behind the place where the unit ends
    have here : wordLexeme (text ++ back) = wordAlone (text ++ back) := by
      refine (wordLexeme_cases (text ++ back)).resolve_right ?_
      rintro ⟨q, rest, ahead, opens⟩
      have inner := Scanner.quotedLexeme_rest_le (lowerAscii ((text ++ back).takeWhile Text.isIdentifierChar)) q rest
      rw [← wordLexeme_quoted ahead opens, ends, length_append] at inner
      rw [ahead, length_cons] at short
      omega
    rw [here] at ends ⊢
    have none := eq_nil_of_cut short ends
    subst none
    obtain ⟨word, rest⟩ := takeWhile_divided divided isIdentifierChar_of_gapChars ends
    rw [wordLexeme_alone (by rw [rest]; exact divided.gap.head_any (forall_gapChars (by decide)))]
    unfold wordAlone
    rw [word, rest]

theorem symbolLexeme_divided {c : Char} (ends : (symbolLexeme c (text ++ back)).rest = left ++ back) :
    symbolLexeme c (text ++ after) = { symbolLexeme c (text ++ back) with rest := left ++ after } := by
  have plain : ∀ c ∈ gapChars, ∀ symbol ∈ longOperators, c ∉ symbol.toList := forall_gapChars (by decide)
  have later : Divided (c :: text) after → ∀ symbol ∈ longOperators,
      symbol.toList.isPrefixOf (c :: (text ++ after)) = symbol.toList.isPrefixOf (c :: text) :=
    fun parts symbol member =>
      parts.isPrefixOf_append fun d written blank => plain d blank symbol member written
  unfold symbolLexeme at ends ⊢
  cases found : longOperators.find? fun symbol => symbol.toList.isPrefixOf (c :: (text ++ back)) with
  | some symbol =>
    rw [found] at ends
    dsimp only at ends
    obtain ⟨starts, before, more, parts, others⟩ := List.find?_eq_some_iff_append.mp found
    have part : left ++ back <:+ c :: text ++ back := ends ▸ drop_suffix _ _
    have fits : symbol.toList.length ≤ (c :: text).length := by
      have whole := (List.isPrefixOf_iff_prefix.mp starts).length_le
      have length := congrArg List.length ends
      simp only [length_drop, length_cons, length_append] at whole length ⊢
      omega
    have found' : (longOperators.find? fun symbol => symbol.toList.isPrefixOf (c :: (text ++ after))) =
        some symbol := by
      have divided := later (divided.of_suffix (suffix_append_self_iff.mp part))
      have member := mem_of_find?_eq_some found
      refine List.find?_eq_some_iff_append.mpr ⟨?_, before, more, parts, ?_⟩
      · rw [divided symbol member]
        exact isPrefixOf_cut fits starts
      · intro other earlier
        have longer := others other earlier
        rw [divided other (parts ▸ mem_append_left _ earlier)]
        rw [Bool.not_eq_true'] at longer ⊢
        by_contra shorter
        rw [← cons_append, isPrefixOf_longer (by simpa using shorter)] at longer
        cases longer
    rw [found']
    dsimp only
    rw [← cons_append, drop_append_of_le_length fits] at ends ⊢
    rw [append_cancel_right ends]
  | none =>
    rw [found] at ends
    dsimp only at ends
    have same : left = text := by
      split at ends
      · exact (append_cancel_right ends).symm
      · split at ends <;> exact (append_cancel_right ends).symm
    subst same
    have found' : (longOperators.find? fun symbol => symbol.toList.isPrefixOf (c :: (left ++ after))) = none := by
      rw [List.find?_eq_none] at found ⊢
      intro symbol member starts
      rw [later (divided.of_suffix (suffix_cons _ _)) symbol member] at starts
      exact found symbol member (isPrefixOf_longer starts)
    rw [found']
    dsimp only
    split
    · rfl
    · split <;> rfl

/-- A unit that ends before `back` is the same when `after` comes instead, unless it is a literal that is
    open there. -/
theorem lexeme_divided {c : Char} (ends : (lexeme c (text ++ back)).rest = left ++ back)
    (stops : (lexeme c (text ++ back)).role = .unclosed → left ≠ [])
    (single : (lexeme c (text ++ back)).role = .word → left = ['.'] → back.head? ≠ some '.') :
    lexeme c (text ++ after) = { lexeme c (text ++ back) with rest := left ++ after } := by
  have number : (c.isDigit || (c == '.' && (text ++ back).head?.any Char.isDigit)) =
      (c.isDigit || (c == '.' && (text ++ after).head?.any Char.isDigit)) := by
    cases text with
    | cons d ds => rfl
    | nil =>
      have none : left = [] := by
        have short := Scanner.lexeme_rest_lt c ([] ++ back)
        rw [ends, length_append, length_cons, nil_append] at short
        exact length_eq_zero_iff.mp (by omega)
      subst none
      rw [nil_append, nil_append, divided.gap.head_any (forall_gapChars (by decide))]
      by_cases point : c = '.'
      · subst point
        have plain : back.head?.any Char.isDigit = false :=
          Bool.eq_false_iff.mpr fun digit => lexeme_point_ne digit ends
        rw [plain]
      · simp [point]
  unfold lexeme at stops ends single ⊢
  rw [number] at stops ends single ⊢
  split at ends
  · rename_i quoted
    rw [if_pos quoted] at stops
    rw [if_pos quoted, if_pos quoted]
    exact quotedLexeme_divided divided quoted ends stops
  · rename_i quoted
    rw [if_neg quoted] at stops single
    rw [if_neg quoted, if_neg quoted]
    split at ends
    · rename_i digits
      rw [if_pos digits] at single
      rw [if_pos digits, if_pos digits]
      unfold numberLexeme at ends ⊢
      rw [numberText_divided divided ends (single (numberLexeme_role _))]
    · rename_i digits
      rw [if_neg digits] at stops
      rw [if_neg digits, if_neg digits]
      split at ends
      · rename_i word
        rw [if_pos word] at stops
        rw [if_pos word, if_pos word]
        rw [← cons_append] at ends stops ⊢
        exact wordLexeme_divided divided ends stops
      · rename_i word
        rw [if_neg word, if_neg word]
        exact symbolLexeme_divided divided ends

end Units

theorem ne_of_starts {c : Char} (starts : Scanner.isBlankLine (c :: text) = false) : c ≠ '\n' ∧ c ≠ '#' := by
  constructor
  · rintro rfl
    cases starts
  · rintro rfl
    cases starts

def Lexeme.Open (unit : Lexeme) : Prop := unit.role = .unclosed ∧ unit.rest = []

variable {c : Char}

theorem lexeme_append (divided : Divided (lexeme c text).rest after) (closed : ¬ (lexeme c text).Open) :
    lexeme c (text ++ after) = { lexeme c text with rest := (lexeme c text).rest ++ after } := by
  have whole := @lexeme_divided text (lexeme c text).rest [] after divided c
  simp only [append_nil] at whole
  exact whole trivial (fun role none => closed ⟨role, none⟩) (by simp)

theorem quotedLexeme_role_ne (marks : List Char) {quote : Char} (quoted : isQuote quote = true) (text : List Char) :
    (quotedLexeme marks quote text).role ≠ .word := by
  rw [quotedLexeme_role marks quoted]
  split <;> simp

theorem lexeme_word_or_literal (c : Char) (text : List Char) :
    ((lexeme c text).role = .word ∧ (lexeme c text).lines = 0) ∨ ∀ more, (lexeme c (text ++ more)).role ≠ .word := by
  unfold lexeme
  split
  · rename_i quoted
    exact .inr fun more => quotedLexeme_role_ne [] quoted _
  · rename_i quoted
    split
    · exact .inl ⟨numberLexeme_role _, rfl⟩
    · rename_i number
      split
      · rename_i letter
        rcases wordLexeme_cases (c :: text) with alone | ⟨q, rest, ahead, opens⟩
        · rw [alone]
          exact .inl ⟨kindOfWord_role _ _ _ _, rfl⟩
        · have visible : (c :: text).dropWhile Text.isIdentifierChar ≠ [] := by simp [ahead]
          have point : c ≠ '.' := by
            rintro rfl
            exact absurd letter (by decide)
          refine .inr fun more => ?_
          have later : ((c :: text) ++ more).dropWhile Text.isIdentifierChar = q :: (rest ++ more) := by
            rw [dropWhile_visible visible, ahead, cons_append]
          rw [if_neg (by simp_all), ← cons_append, wordLexeme_quoted later]
          · exact quotedLexeme_role_ne _ (Bool.and_eq_true_iff.mp opens).1 _
          · rw [takeWhile_visible visible]
            exact opens
      · unfold symbolLexeme
        split
        · exact .inl ⟨rfl, rfl⟩
        · split
          · exact .inl ⟨rfl, rfl⟩
          · split
            · exact .inl ⟨rfl, rfl⟩
            · exact .inl ⟨by simp [Lexeme.role, quoted], rfl⟩

theorem Lexeme.role_cases (unit : Lexeme) :
    unit.role = .literal ∨ unit.role = .unclosed ∨ unit.role = .word := by
  unfold role
  split
  · simp
  · simp
  · split <;> simp
  · simp

theorem kind_of_unclosed {unit : Lexeme} (unclosed : unit.role = .unclosed) : unit.kind = .illegal := by
  unfold Lexeme.role at unclosed
  split at unclosed
  · cases unclosed
  · cases unclosed
  · assumption
  · cases unclosed

theorem EndsLine.lexeme_rest (ends : EndsLine text) (inner : c ≠ '\n') (other : c ≠ '#')
    (closed : (lexeme c text).role ≠ .unclosed) : (lexeme c text).rest ≠ [] := by
  intro none
  have lines := lexeme_lines inner text
  obtain ⟨front, takes⟩ := lexeme_takes other text
  have some : 0 < (c :: text).count '\n' := count_pos_iff.mpr (mem_of_getLast? ends.cons)
  have whole := takes.whole
  rw [none, append_nil] at whole
  rcases (lexeme c text).role_cases with literal | unclosed | word
  · obtain ⟨quote, quoted, last⟩ := takes.closed literal
    rw [whole, ends.cons] at last
    cases last
    cases quoted
  · exact closed unclosed
  · rcases lexeme_word_or_literal c text with ⟨_, short⟩ | quoted
    · rw [short, none] at lines
      exact absurd lines (Nat.ne_of_lt some)
    · exact absurd word (by simpa using quoted [])

theorem open_of_last (ends : EndsLine text) (inner : c ≠ '\n') (other : c ≠ '#') (last : (lexeme c text).rest = []) :
    (lexeme c text).Open := by
  refine ⟨?_, last⟩
  by_contra closed
  exact ends.lexeme_rest inner other closed last

/-- Whether a unit is a literal that goes on where the text ends with `after`, or stops there unclosed. -/
def Lexeme.Reaches (after : List Char) (unit : Lexeme) : Prop :=
  (unit.role = .literal ∧ unit.rest.length < after.length) ∨
    (unit.role = .unclosed ∧ unit.rest.length ≤ after.length)

theorem lexeme_past (other : c ≠ '#') (goes : (lexeme c text).Open) (after : List Char) :
    (lexeme c (text ++ after)).Reaches after := by
  obtain ⟨front, takes⟩ := lexeme_takes other (text ++ after)
  have quoted : (lexeme c (text ++ after)).role ≠ .word := by
    refine (lexeme_word_or_literal c text).resolve_left ?_ after
    rintro ⟨word, _⟩
    rw [goes.1] at word
    cases word
  rcases Nat.lt_or_ge (lexeme c (text ++ after)).rest.length after.length with short | long
  · rcases (lexeme c (text ++ after)).role_cases with literal | unclosed | word
    · exact .inl ⟨literal, short⟩
    · exact .inr ⟨unclosed, Nat.le_of_lt short⟩
    · exact absurd word quoted
  · -- it would end in the text, and there without what comes after it too
    obtain ⟨left, rest⟩ := suffix_of_suffix_length_le (suffix_append (c :: text) after)
      ⟨front, takes.whole⟩ long
    by_cases open_ : (lexeme c (text ++ after)).role = .unclosed ∧ left = []
    · refine .inr ⟨open_.1, ?_⟩
      rw [← rest, open_.2]
      exact Nat.le_refl _
    have short := lexeme_divided (.inr Gap.nil) rest.symm (fun role none => open_ ⟨role, none⟩)
      fun word => absurd word quoted
    rw [append_nil, append_nil] at short
    rw [short] at goes
    exact absurd goes open_

/-- Whether a unit ends before the text does, as every legal one does in a text that ends with a line
    break. -/
def Lexeme.Stops (unit : Lexeme) : Prop := unit.kind ≠ .illegal ∨ unit.rest ≠ []

/-- A unit of a text that ends with a line break is the same when the text goes on: it ends in it. -/
structure Lexeme.Within (back : List Char) (unit longer : Lexeme) : Prop where
  same : longer = { unit with rest := unit.rest ++ back }
  ends : EndsLine unit.rest

theorem lexeme_within (back : List Char) (inner : c ≠ '\n') (other : c ≠ '#') (ends : EndsLine text)
    (stops : (lexeme c text).Stops) : Lexeme.Within back (lexeme c text) (lexeme c (text ++ back)) := by
  have some : (lexeme c text).rest ≠ [] := by
    rcases stops with legal | some
    · exact ends.lexeme_rest inner other fun unclosed => legal (kind_of_unclosed unclosed)
    · exact some
  obtain ⟨front, takes⟩ := lexeme_takes other text
  have ends' : EndsLine (lexeme c text).rest := ends.cons.suffix ⟨front, takes.whole⟩ some
  exact ⟨lexeme_append (.inl ends') fun goes => some goes.2, ends'⟩

end SourceAudit.Token

import SourceAudit.Proofs.Grammar.LineOrder
import SourceAudit.Proofs.Grammar.Shelter
import SourceAudit.Proofs.Syntax.Names
import SourceAudit.Proofs.Syntax.ShapeRules

open List

namespace SourceAudit

def Text.IsWord (text : String) : Prop := text ≠ "" ∧ ∀ c ∈ text.toList, isIdentifierChar c = true

/-- Something that identifiers stand in: a token, or a replacement field and the line at which it starts. -/
inductive Source where
  | token (token : Token)
  | field (text : String) (line : Nat)

def Piece.source? : Piece → Option Source
  | .replacement text line => some (.field (String.ofList text) line)
  | _ => none

def Token.fields (token : Token) : List Source := (Piece.ofBody token.line token.text.toList).filterMap Piece.source?

namespace Source

/-- Identifiers of some sources in their order, with their lines. Names that are no identifiers are left out. -/
inductive Shows : List Source → List (String × Nat) → Prop where
  | nil : Shows [] []
  | skip (source : Source) {sources : List Source} {sites : List (String × Nat)} (rest : Shows sources sites) :
      Shows (source :: sources) sites
  | name {token : Token} {sources : List Source} {sites : List (String × Nat)} (kind : token.kind = .identifier)
      (rest : Shows sources sites) : Shows (.token token :: sources) ((token.text, token.line) :: sites)
  | dots {token : Token} {sources : List Source} {sites : List (String × Nat)} (found : token.isOperator "..." = true)
      (rest : Shows sources sites) : Shows (.token token :: sources) (("Ellipsis", token.line) :: sites)
  | formatted {token : Token} {sources : List Source} {sites : List (String × Nat)}
      (kind : token.kind = .formattedString) (rest : Shows (token.fields ++ sources) sites) :
      Shows (.token token :: sources) sites
  | field {text : String} {line : Nat} {sources : List Source} {sites : List (String × Nat)}
      (rest : Shows ((Token.ofText text line).map .token ++ sources) sites) : Shows (.field text line :: sources) sites

variable {first second : List Source} {sites more : List (String × Nat)}

theorem Shows.append (shows_ : Shows first sites) (later : Shows second more) :
    Shows (first ++ second) (sites ++ more) := by
  induction shows_ with
  | nil => exact later
  | skip source _ ih => exact .skip source ih
  | name kind _ ih => exact .name kind ih
  | dots found _ ih => exact .dots found ih
  | formatted kind _ ih => exact .formatted kind (by rwa [List.append_assoc] at ih)
  | field _ ih => exact .field (by rwa [List.append_assoc] at ih)

theorem shows_nil (sources : List Source) : Shows sources [] := by
  induction sources with
  | nil => exact .nil
  | cons source sources ih => exact .skip source ih

theorem Shows.behind (shows_ : Shows first sites) (sources : List Source) : Shows (first ++ sources) sites := by
  simpa using shows_.append (shows_nil sources)

end Source

/-- What a part of the source amounts to: the names in it, the lines of its nodes, its identifiers, and that it keeps
    the rules for its shape. -/
structure Tally where
  names : List String
  lines : List Nat
  sites : List (String × Nat)
  sound : Prop

namespace Tally

def rule (holds : Prop) : Tally := ⟨[], [], [], holds⟩

def nothing : Tally := rule True

def named (names : List String) : Tally := ⟨names, [], [], True⟩

def line (line : Nat) : Tally := ⟨[], [line], [], True⟩

instance : Append Tally :=
  ⟨fun first second => ⟨first.names ++ second.names, first.lines ++ second.lines, first.sites ++ second.sites,
    first.sound ∧ second.sound⟩⟩

def all {α : Type} (of : α → Tally) (values : List α) : Tally :=
  ⟨values.flatMap fun value => (of value).names, values.flatMap fun value => (of value).lines,
    values.flatMap fun value => (of value).sites, values.Forall fun value => (of value).sound⟩

def bare (tally : Tally) : Tally := { tally with sites := [] }

@[simp] theorem append_eq (first second : Tally) : first ++ second =
    ⟨first.names ++ second.names, first.lines ++ second.lines, first.sites ++ second.sites,
      first.sound ∧ second.sound⟩ := rfl

@[simp] theorem append_nothing (tally : Tally) : tally ++ nothing = tally := by simp [nothing, rule]

@[simp] theorem nothing_append (tally : Tally) : nothing ++ tally = tally := by simp [nothing, rule]

theorem append_assoc (first second third : Tally) : first ++ second ++ third = first ++ (second ++ third) := by
  simp [and_assoc]

@[simp] theorem all_nil {α : Type} (of : α → Tally) : all of [] = nothing := rfl

theorem all_cons {α : Type} (of : α → Tally) (value : α) (values : List α) :
    all of (value :: values) = of value ++ all of values := by
  simp [all]

theorem all_append {α : Type} (of : α → Tally) (first second : List α) :
    all of (first ++ second) = all of first ++ all of second := by
  simp [all]

end Tally

namespace Token

def names (tokens : List Token) : List String := (tokens.filter (·.kind = .identifier)).map (·.text)

/-- A token that brings no name but its own text, which is one word. -/
structure IsNamed (token : Token) : Prop where
  plain : token.kind ≠ .formattedString
  dots : token.isOperator "..." = false
  word : token.kind = .identifier → Text.IsWord token.text

def Opened (tokens : List Token) : Prop :=
  ∀ front token back, tokens = front ++ token :: back → token.kind = .indent →
    ∃ before colon newline, front = before ++ [colon, newline] ∧ colon.isDelimiter ":" = true ∧
      newline.kind = .newline

@[simp] theorem names_nil : names [] = [] := rfl

@[simp] theorem names_append (first second : List Token) : names (first ++ second) = names first ++ names second := by
  simp [names]

theorem names_of_other {token : Token} (other : token.kind ≠ .identifier) : names [token] = [] := by
  simp [names, other]

theorem isWord_of_mem_names {tokens : List Token} (named : ∀ token ∈ tokens, token.IsNamed) :
    ∀ name ∈ names tokens, Text.IsWord name := by
  intro name member
  obtain ⟨token, found, rfl⟩ := mem_map.mp member
  obtain ⟨inside, identifier⟩ := mem_filter.mp found
  exact (named token inside).word (by simpa using identifier)

theorem Opened.of_none {tokens : List Token} (none : ∀ token ∈ tokens, token.kind ≠ .indent) : Opened tokens := by
  intro front token back split indent
  exact absurd indent (none token (by simp [split]))

theorem Opened.append {first second : List Token} (opened : Opened first) (later : Opened second) :
    Opened (first ++ second) := by
  intro front token back split indent
  rcases append_eq_append_iff.mp split with ⟨start, rfl, rest⟩ | ⟨start, rfl, rest⟩
  · obtain ⟨before, colon, newline, rfl, found, ends⟩ := later _ _ _ rest indent
    exact ⟨first ++ before, colon, newline, by simp, found, ends⟩
  · cases start with
    | nil =>
      obtain ⟨before, colon, newline, none, _⟩ := later [] token back rest.symm indent
      simp at none
    | cons next start =>
      obtain ⟨rfl, _⟩ := List.cons.inj rest
      exact opened front _ start rfl indent

/-- Tokens that turn the brackets owed before them into those owed after them, and what has been read before them
    into what has been read after them. -/
structure Spells (owed : List String) (tokens : List Token) (owed' : List String) (before after : Tally) : Prop where
  inside : ∀ token ∈ tokens, token.kind ≠ .endOfInput
  closes : owedThrough owed tokens = some owed'
  opened : Opened tokens
  sheltered : (Shelter.level owed.length).through tokens = some (.level owed'.length)
  named : (∀ name ∈ before.names, Text.IsWord name) → (∀ token ∈ tokens, token.IsNamed) →
    before.names ++ names tokens = after.names
  placed : ∀ {sources : List Source}, Source.Shows sources before.sites →
    Source.Shows (sources ++ tokens.map .token) after.sites

/-- A token that is no name and no layout but the end of a line. -/
structure Turns (owed owed' : List String) (token : Token) : Prop where
  inside : token.kind ≠ .endOfInput
  level : token.kind ≠ .indent
  other : token.kind ≠ .identifier
  fits : owed = [] ∨ token.FitsInside
  owed : owedAfter owed token = some owed'

variable {owed owed' owed'' : List String} {before middle after : Tally} {token : Token} {tokens more : List Token}

theorem Spells.append (first : Spells owed tokens owed' before middle) (second : Spells owed' more owed'' middle after) :
    Spells owed (tokens ++ more) owed'' before after := by
  refine ⟨?_, ?_, first.opened.append second.opened, ?_, ?_, fun shown => ?_⟩
  · exact forall_mem_append.mpr ⟨first.inside, second.inside⟩
  · rw [owedThrough_append, first.closes]
    exact second.closes
  · rw [Shelter.through_append, first.sheltered]
    exact second.sheltered
  · intro words named
    obtain ⟨early, late⟩ := forall_mem_append.mp named
    have start := first.named words early
    have still : ∀ name ∈ middle.names, Text.IsWord name := by
      rw [← start]
      exact forall_mem_append.mpr ⟨words, isWord_of_mem_names early⟩
    rw [names_append, ← List.append_assoc, start]
    exact second.named still late
  · rw [map_append, ← List.append_assoc]
    exact second.placed (first.placed shown)

theorem Turns.spells_of (turns : Turns owed owed' token) (named : token.IsNamed → before.names = after.names)
    (placed : ∀ {sources : List Source}, Source.Shows sources before.sites →
      Source.Shows (sources ++ [.token token]) after.sites) : Spells owed [token] owed' before after := by
  refine ⟨by simp [turns.inside], ?_, .of_none (by simp [turns.level]), ?_, ?_, placed⟩
  · rw [owedThrough_singleton, turns.owed]
  · rw [Shelter.through_singleton, Shelter.after_level (turns.fits.imp_left (congrArg List.length)),
      nesting_of_owed turns.owed]
  · intro _ each
    rw [names_of_other turns.other, append_nil]
    exact named (each token mem_cons_self)

theorem Turns.spells (turns : Turns owed owed' token) (before : Tally) : Spells owed [token] owed' before before :=
  turns.spells_of (fun _ => rfl) fun shown => shown.behind _

theorem Spells.identifier (name : token.kind = .identifier) (owed : List String)
    (named : before.names ++ [token.text] = after.names)
    (placed : ∀ {sources : List Source}, Source.Shows sources before.sites →
      Source.Shows (sources ++ [.token token]) after.sites) : Spells owed [token] owed before after := by
  refine ⟨by simp [name], ?_, .of_none (by simp [name]), ?_, fun _ _ => ?_, placed⟩
  · rw [owedThrough_singleton, owedAfter, name]
  · rw [Shelter.through_singleton]
    exact Shelter.after_identifier name
  · simpa [names, name] using named

theorem Spells.attribute {point : Token} (kind : point.kind = .keyword ∨ point.kind = .operator)
    (inner : point.breaksOut = false) (name : token.kind = .identifier) (owed : List String) :
    Spells owed [point, token] owed .nothing (.named [token.text]) := by
  have inside : point.kind ≠ .endOfInput ∧ point.kind ≠ .indent ∧ point.kind ≠ .identifier := by
    rcases kind with kind | kind <;> simp [kind]
  refine ⟨by simp [inside.1, name], ?_, .of_none (by simp [inside.2.1, name]), ?_, ?_, fun _ => Source.shows_nil _⟩
  · rcases kind with kind | kind <;> simp [owedThrough, owedAfter, kind, name]
  · obtain ⟨dotted, step⟩ := @Shelter.after_word owed.length point inner kind
    rw [← singleton_append, Shelter.through_append, Shelter.through_singleton, step, Option.bind_some,
      Shelter.through_singleton, Shelter.after_identifier name]
  · intro _ _
    simp [names, inside.2.2, name, Tally.nothing, Tally.rule, Tally.named]

theorem Turns.of_kind (kind : token.kind ∈ [.keyword, .operator, .integer, .float, .boolean, .none, .string,
    .formattedString, .dedent]) (fits : owed = [] ∨ token.FitsInside) : Turns owed owed token := by
  have other : ∀ kind ∈ [Kind.keyword, .operator, .integer, .float, .boolean, .none, .string, .formattedString, .dedent],
      kind ≠ .endOfInput ∧ kind ≠ .indent ∧ kind ≠ .identifier ∧ kind ≠ .illegal ∧ kind ≠ .newline ∧
        kind ≠ .delimiter := by decide
  obtain ⟨inside, level, name, legal, within, bracket⟩ := other _ kind
  refine ⟨inside, level, name, fits, ?_⟩
  unfold owedAfter
  split <;> first | contradiction | rfl

theorem Turns.word (fits : owed = [] ∨ token.FitsInside) (kind : token.kind = .keyword ∨ token.kind = .operator) :
    Turns owed owed token :=
  .of_kind (by rcases kind with kind | kind <;> simp [kind]) fits

theorem Turns.plain (kind : token.kind ∈ [.integer, .float, .boolean, .none, .string, .formattedString, .dedent]) :
    Turns owed owed token := by
  have other : ∀ kind ∈ [Kind.integer, .float, .boolean, .none, .string, .formattedString, .dedent],
      kind ≠ .keyword ∧ kind ≠ .operator := by decide
  exact .of_kind (by simp [kind]) (.inr (.of_kind (other _ kind).1 (other _ kind).2))

theorem Turns.keyword {word : String} (inner : owed = [] ∨ word = "async" ∨ word ∉ bracketEnders)
    (found : token.isKeyword word = true) : Turns owed owed token :=
  .word (inner.imp_right (.keyword found)) (.inl (kind_of_isKeyword found))

theorem Turns.operator {symbol : String} (other : owed = [] ∨ symbol ≠ ".")
    (found : token.isOperator symbol = true) : Turns owed owed token :=
  .word (other.imp_right (.operator found)) (.inr (kind_of_isOperator found).1)

theorem Turns.delimiter {symbol : String} (effect : owedAt owed symbol = some owed')
    (found : token.isDelimiter symbol = true) : Turns owed owed' token := by
  obtain ⟨kind, text⟩ := kind_of_isDelimiter found
  refine ⟨by simp [kind], by simp [kind], by simp [kind], .inr (.of_kind (by simp [kind]) (by simp [kind])), ?_⟩
  rw [owedAfter, kind, text]
  exact effect

theorem Turns.newline (kind : token.kind = .newline) : Turns [] [] token :=
  ⟨by simp [kind], by simp [kind], by simp [kind], .inl rfl, by rw [owedAfter, kind]; rfl⟩

theorem Turns.dedent (kind : token.kind = .dedent) : Turns owed owed token :=
  .plain (by simp [kind])

theorem Spells.opening {colon newline indent : Token} (found : colon.isDelimiter ":" = true)
    (ends : newline.kind = .newline) (opens : indent.kind = .indent) (before : Tally) :
    Spells [] [colon, newline, indent] [] before before := by
  obtain ⟨kind, text⟩ := kind_of_isDelimiter found
  refine ⟨by simp [kind, ends, opens], ?_, ?_, ?_, ?_, fun shown => shown.behind _⟩
  · simp [owedThrough, owedAfter, owedAt, kind, text, ends, opens]
  · intro front token back split level
    rcases front with _ | ⟨first, _ | ⟨second, _ | ⟨third, front⟩⟩⟩
    · cases split
      simp [kind] at level
    · cases split
      simp [ends] at level
    · cases split
      exact ⟨[], colon, newline, rfl, found, ends⟩
    · simp at split
  · simp [Shelter.through, Shelter.level, Shelter.after, nesting, depthAt, kind, text, ends, opens]
  · intro _ _
    simp [names, kind, ends, opens]

end Token

abbrev Outcome (α : Type) := EStateM.Result SyntaxError Cursor α

namespace Cursor

structure Onward (cursor stop : Cursor) : Prop where
  errors : cursor.errors <+: stop.errors
  rest : stop.rest <:+ cursor.rest
  final : stop.final = cursor.final

variable {cursor middle stop : Cursor}

theorem Onward.refl (cursor : Cursor) : cursor.Onward cursor := ⟨prefix_rfl, suffix_rfl, rfl⟩

theorem Onward.trans (first : cursor.Onward middle) (second : middle.Onward stop) : cursor.Onward stop :=
  ⟨first.errors.trans second.errors, second.rest.trans first.rest, second.final.trans first.final⟩

theorem Ordered.onward {high : Nat} (ordered : cursor.Ordered high) (onward : cursor.Onward stop) :
    stop.Ordered high ∧ cursor.line ≤ stop.line :=
  ordered.suffix onward.rest onward.final

theorem Onward.size_le (onward : cursor.Onward stop) : stop.size ≤ cursor.size := by
  rw [stop.size_eq, cursor.size_eq]
  exact onward.rest.length_le

theorem size_advance_lt (inside : cursor.current.kind ≠ .endOfInput) : cursor.advance.size < cursor.size := by
  rw [cursor.size_eq, cursor.advance.size_eq, rest_of_current inside]
  simp

theorem size_advance_of_cons {token : Token} {more : List Token} (rest : cursor.rest = token :: more) :
    cursor.advance.size < cursor.size := by
  simp [size_eq, advance, Cursor.drop, rest]

theorem onward_drop (count : Nat) (cursor : Cursor) : cursor.Onward (cursor.drop count) :=
  ⟨prefix_rfl, drop_suffix count cursor.rest, rfl⟩

theorem errors_of_between (first : cursor.errors <+: middle.errors) (second : middle.errors <+: stop.errors)
    (clean : stop.errors = cursor.errors) : middle.errors = cursor.errors := by
  refine (first.eq_of_length_le ?_).symm
  rw [← clean]
  exact second.length_le

/-- From one cursor to a later one with what has been read before and after. If there is no new error, the tokens
    between them spell it, and its lines climb. It stays sound in any case. -/
structure Passes (faults : Faults) (cursor stop : Cursor) (owed owed' : List String) (before after : Tally) : Prop
    extends Onward cursor stop where
  spells : stop.errors = cursor.errors →
    ∃ tokens, cursor.rest = tokens ++ stop.rest ∧ Token.Spells owed tokens owed' before after
  quiet : faults.quiet = true → stop.errors = cursor.errors
  climbs : ∀ {high low : Nat}, cursor.Ordered high → Climb low before.lines cursor.line →
    faults.kept cursor stop ∧ Climb low after.lines stop.line
  sound : before.sound → after.sound

structure Fails (faults : Faults) (cursor stop : Cursor) (before : Tally) (error : SyntaxError) : Prop
    extends cursor.Onward stop where
  thrown : ∀ {high low : Nat}, cursor.Ordered high → Climb low before.lines cursor.line →
    faults.thrown low cursor stop error

/-- The outcome of a reader at a cursor. Where `gain` holds, it takes at least one token. -/
def Fits {α : Type} (faults : Faults) (cursor : Cursor) (owed owed' : List String) (before : Tally)
    (after : α → Tally) (gain : α → Prop) : Outcome α → Prop
  | .ok value stop =>
    cursor.Passes faults stop owed owed' before (after value) ∧ (gain value → stop.size < cursor.size)
  | .error error stop => cursor.Fails faults stop before error

variable {α : Type} {faults : Faults} {owed owed' owed'' : List String} {before between after : Tally}

theorem Passes.of_eq (cursor : Cursor) (owed : List String)
    (names : (∀ name ∈ before.names, Text.IsWord name) → before.names = after.names)
    (lines : ∀ {low : Nat}, Climb low before.lines cursor.line → Climb low after.lines cursor.line)
    (sites : after.sites = before.sites ∨ after.sites = []) (sound : before.sound → after.sound) :
    cursor.Passes faults cursor owed owed before after := by
  refine ⟨.refl cursor, fun _ => ⟨[], rfl, by simp, rfl, .of_none (by simp), rfl, ?_, fun shown => ?_⟩, fun _ => rfl, ?_,
    sound⟩
  · intro words _
    rw [Token.names_nil, append_nil, names words]
  · rcases sites with same | none
    · simpa [same] using shown
    · rw [none]
      exact Source.shows_nil _
  · intro high low _ climb
    exact ⟨faults.still rfl (Nat.le_refl _), lines climb⟩

theorem Passes.refl (cursor : Cursor) (owed : List String) (before : Tally) :
    cursor.Passes faults cursor owed owed before before :=
  .of_eq cursor owed (fun _ => rfl) id (.inl rfl) id

theorem Passes.located (cursor : Cursor) (owed : List String) (before : Tally) :
    cursor.Passes faults cursor owed owed before (before ++ .line cursor.current.line) :=
  .of_eq cursor owed (fun _ => (append_nil _).symm) (·.append ⟨Nat.le_refl _, Nat.le_refl _⟩)
    (.inl (append_nil _)) (⟨·, trivial⟩)

theorem Passes.trans (first : cursor.Passes faults middle owed owed' before between)
    (second : middle.Passes faults stop owed' owed'' between after) :
    cursor.Passes faults stop owed owed'' before after := by
  refine ⟨first.toOnward.trans second.toOnward, fun clean => ?_, ?_, fun ordered climb => ?_,
    fun sound => second.sound (first.sound sound)⟩
  · have same := errors_of_between first.errors second.errors clean
    obtain ⟨tokens, rest, spells⟩ := first.spells same
    obtain ⟨more, rest', spells'⟩ := second.spells (clean.trans same.symm)
    exact ⟨tokens ++ more, by rw [rest, rest', List.append_assoc], spells.append spells'⟩
  · exact fun quiet => (second.quiet quiet).trans (first.quiet quiet)
  · obtain ⟨kept, climb⟩ := first.climbs ordered climb
    obtain ⟨kept', climb⟩ := second.climbs (ordered.onward first.toOnward).1 climb
    exact ⟨faults.trans kept kept', climb⟩

theorem Passes.framed (passes : cursor.Passes faults stop owed owed' .nothing after) (before : Tally) :
    cursor.Passes faults stop owed owed' before (before ++ after) := by
  refine ⟨passes.toOnward, fun clean => ?_, passes.quiet, fun ordered climb => ?_, (⟨·, passes.sound trivial⟩)⟩
  · obtain ⟨tokens, rest, inside, closes, opened, sheltered, named, placed⟩ := passes.spells clean
    refine ⟨tokens, rest, inside, closes, opened, sheltered, fun _ each => ?_, fun shown => shown.append (placed .nil)⟩
    exact congrArg (before.names ++ ·) (named (by simp [Tally.nothing, Tally.rule]) each)
  · obtain ⟨kept, inside⟩ := passes.climbs ordered (Nat.le_refl cursor.line)
    exact ⟨kept, climb.append inside⟩

theorem Passes.advance (inside : cursor.current.kind ≠ .endOfInput)
    (spells : Token.Spells owed [cursor.current] owed' before after)
    (lines : ∀ {low high : Nat}, Climb low before.lines cursor.line → cursor.current.lastLine ≤ high →
      Climb low after.lines high) (sound : before.sound → after.sound) :
    cursor.Passes faults cursor.advance owed owed' before after := by
  refine ⟨onward_drop 1 cursor, fun _ => ⟨[cursor.current], rest_of_current inside, spells⟩, fun _ => rfl, ?_, sound⟩
  intro high low ordered climb
  exact ⟨faults.still rfl (ordered.drop 1).2, lines climb ordered.lastLine_le⟩

theorem Passes.turns (turns : cursor.current.Turns owed owed') (before : Tally) :
    cursor.Passes faults cursor.advance owed owed' before before :=
  .advance turns.inside (turns.spells _) (fun climb below => climb.raise (cursor.current.line_le_lastLine.trans below)) id

theorem Passes.identifier (name : cursor.current.kind = .identifier) (owed : List String) (before : Tally) :
    cursor.Passes faults cursor.advance owed owed before (before ++ .named [cursor.current.text]) := by
  refine .advance (by simp [name]) (.identifier name owed rfl fun shown => ?_) (fun climb below => ?_) (⟨·, trivial⟩)
  · simpa [Tally.named] using shown.behind _
  · exact climb.append (cursor.current.line_le_lastLine.trans below)

theorem Passes.attribute (kind : cursor.current.kind = .keyword ∨ cursor.current.kind = .operator)
    (inner : cursor.current.breaksOut = false) (name : cursor.advance.current.kind = .identifier) (owed : List String) :
    cursor.Passes faults cursor.advance.advance owed owed .nothing (.named [cursor.advance.current.text]) := by
  have inside : cursor.current.kind ≠ .endOfInput := by rcases kind with kind | kind <;> simp [kind]
  have onward := (onward_drop 1 cursor).trans (onward_drop 1 cursor.advance)
  refine ⟨onward, fun _ => ⟨_, ?_, .attribute kind inner name owed⟩, fun _ => rfl, fun ordered climb => ?_, id⟩
  · rw [rest_of_current inside, rest_of_current (by simp [name])]
    rfl
  · have below := (ordered.onward onward).2
    exact ⟨faults.still rfl below, climb.raise below⟩

theorem Passes.operator {op : BinaryOp}
    (found : Continuation.ofTokens cursor.current cursor.peek = some (.operator op)) (owed : List String)
    (before : Tally) :
    cursor.Passes faults (cursor.drop (Continuation.operator op).width) owed owed before before ∧
      (cursor.drop (Continuation.operator op).width).size < cursor.size := by
  obtain ⟨kind, width⟩ := Continuation.spelled found
  have turns : cursor.current.Turns owed owed := .word (.inr (Continuation.fitsInside found (by simp))) kind
  have first : cursor.Passes faults cursor.advance owed owed before before := .turns turns before
  have shorter := size_advance_lt turns.inside
  rcases width with single | ⟨double, _⟩
  · rw [single]
    exact ⟨first, shorter⟩
  · obtain ⟨word, inner, next⟩ := Continuation.second_word found double
    rw [← current_advance] at next
    have second : cursor.advance.Passes faults cursor.advance.advance owed owed before before :=
      .turns (.keyword (.inr (.inr inner)) next) before
    have same : cursor.drop 2 = cursor.advance.advance :=
      eq_of_parts (by simp [Cursor.advance, Cursor.drop]) rfl rfl
    rw [double, same]
    exact ⟨first.trans second, second.toOnward.size_le.trans_lt shorter⟩

variable {outcome : Outcome α} {afterValue : α → Tally} {gain : α → Prop}

theorem Passes.fits (passes : cursor.Passes faults middle owed owed' before between)
    (fits : middle.Fits faults owed' owed'' between afterValue gain outcome) :
    cursor.Fits faults owed owed'' before afterValue gain outcome := by
  cases outcome with
  | ok value stop =>
    exact ⟨passes.trans fits.1, fun gains => (fits.2 gains).trans_le passes.toOnward.size_le⟩
  | error error stop =>
    refine ⟨passes.toOnward.trans fits.toOnward, fun ordered climb => ?_⟩
    obtain ⟨kept, climb⟩ := passes.climbs ordered climb
    exact faults.after kept (fits.thrown (ordered.onward passes.toOnward).1 climb)

theorem Fits.framed (fits : cursor.Fits faults owed owed' .nothing afterValue gain outcome) (before : Tally) :
    cursor.Fits faults owed owed' before (fun value => before ++ afterValue value) gain outcome := by
  cases outcome with
  | ok value stop => exact ⟨fits.1.framed before, fits.2⟩
  | error error stop =>
    refine ⟨fits.toOnward, fun ordered climb => ?_⟩
    exact faults.lower climb.le (fits.thrown ordered (Nat.le_refl cursor.line))

theorem Fails.here (cursor : Cursor) (before : Tally) {error : SyntaxError} (place : error.line = cursor.line) :
    cursor.Fails faults cursor before error :=
  ⟨.refl cursor, fun _ climb => faults.here place climb.le⟩

/-- A reader that reports nothing may stand around blocks, if the nodes it reads are all its own. -/
theorem Fits.lifted (fits : cursor.Fits .line owed owed' .nothing afterValue gain outcome) :
    cursor.Fits .block owed owed' .nothing afterValue gain outcome := by
  cases outcome with
  | ok value stop =>
    refine ⟨⟨fits.1.toOnward, fits.1.spells, by simp [Faults.block], fun ordered climb => ?_, fits.1.sound⟩, fits.2⟩
    obtain ⟨errors, inside⟩ := fits.1.climbs ordered (Nat.le_refl cursor.line)
    exact ⟨Faults.block.still errors inside.le, inside.lower climb⟩
  | error error stop =>
    refine ⟨fits.toOnward, fun ordered _ => ?_⟩
    obtain ⟨errors, above, below⟩ := fits.thrown ordered (Nat.le_refl cursor.line)
    exact ⟨[], by rw [errors, append_nil], above, below⟩

end Cursor
end SourceAudit

import DartBindings.Proofs.Declaration.PrintedParameters
import DartBindings.Proofs.Declaration.SignatureText
import DartBindings.Proofs.Source.Sealed

/-!
Default values that call a function with type arguments. Angles are comparisons in a default
value, so a comma between type arguments ends the parameter, and what follows it up to the next
comma outside of brackets is read as a parameter without a type.
-/

set_option autoImplicit false

namespace DartBindings.Declaration

open Text Source Bridge

/-! ## Types of names -/

/-- The type is built from names by generics and question marks. -/
inductive TypeTree.Nominal : TypeTree → Prop where
  | name {word} : IsWord word.toList → Nominal (.name word)
  | generic {word arguments} : IsWord word.toList → (∀ type ∈ arguments, Nominal type) →
      Nominal (.generic word arguments)
  | optional {type} : Nominal type → Nominal (.optional type)

/-- A blank and a word follow each comma. -/
def CommasLead (text : List Char) : Prop :=
  ∀ front rest, text = front ++ ',' :: rest →
    ∃ c more, rest = ' ' :: c :: more ∧ isWordChar c = true

theorem commasLead_of_not_mem {text : List Char} (none : ',' ∉ text) : CommasLead text := by
  rintro front rest rfl
  exact absurd (List.mem_append_right front List.mem_cons_self) none

theorem CommasLead.append {first last : List Char} (before : CommasLead first)
    (after : CommasLead last) : CommasLead (first ++ last) := by
  intro front rest split
  rcases List.append_eq_append_iff.mp split with ⟨between, rfl, inLast⟩ | ⟨between, inFirst, tail⟩
  · exact after between rest inLast
  · cases between with
    | nil => exact after [] rest tail.symm
    | cons d between =>
        obtain ⟨rfl, rfl⟩ := List.cons.inj tail
        obtain ⟨c, more, rfl, word⟩ := before front between inFirst
        exact ⟨c, more ++ last, rfl, word⟩

theorem CommasLead.comma {c : Char} {text : List Char} (after : CommasLead (c :: text))
    (word : isWordChar c = true) : CommasLead (',' :: ' ' :: c :: text) := by
  intro front rest split
  match front with
  | [] =>
      obtain ⟨-, rfl⟩ := List.cons.inj split
      exact ⟨c, text, rfl, word⟩
  | [d] => cases split
  | d :: e :: front =>
      simp only [List.cons_append, List.cons.injEq] at split
      exact after front rest split.2.2

theorem commasLead_listed {pieces : List (List Char)}
    (lead : ∀ piece ∈ pieces, CommasLead piece)
    (starts : ∀ piece ∈ pieces, ∃ c rest, piece = c :: rest ∧ isWordChar c = true) :
    CommasLead (listed ',' pieces) := by
  induction pieces with
  | nil => exact commasLead_of_not_mem nofun
  | cons piece pieces ih =>
      obtain ⟨first, later⟩ := List.forall_mem_cons.mp lead
      obtain ⟨-, others⟩ := List.forall_mem_cons.mp starts
      cases pieces with
      | nil => rwa [listed_singleton]
      | cons next pieces =>
          obtain ⟨c, rest, rfl, word⟩ := others next List.mem_cons_self
          have joined := ih later others
          have begins : ∃ more, listed ',' ((c :: rest) :: pieces) = c :: more := by
            cases pieces with
            | nil => exact ⟨rest, listed_singleton _⟩
            | cons other pieces => exact ⟨_, listed_cons_cons _ _ _⟩
          obtain ⟨more, same⟩ := begins
          rw [listed_cons_cons, same]
          rw [same] at joined
          exact first.append (joined.comma word)

theorem chars_listed {pieces : List (List Char)}
    (chars : ∀ piece ∈ pieces, ∀ c ∈ piece, isAngleChar c = true) :
    ∀ c ∈ listed ',' pieces, isAngleChar c = true := by
  intro c member
  rcases mem_intercalate member with ⟨piece, among, inside⟩ | separator
  · exact chars piece among c inside
  · have both : ∀ c ∈ [',', ' '], isAngleChar c = true := List.all_eq_true.mp rfl
    exact both c separator

namespace TypeTree.Nominal

variable {type : TypeTree}

theorem wellNamed (nominal : type.Nominal) : type.WellNamed := by
  induction nominal with
  | name named => exact .name named
  | generic named _ inner => exact .generic named inner
  | optional _ inner => exact .optional inner

theorem starts (nominal : type.Nominal) :
    ∃ c rest, type.spelling = c :: rest ∧ isWordChar c = true := by
  have word {word : List Char} (named : IsWord word) (after : List Char) :
      ∃ c rest, word ++ after = c :: rest ∧ isWordChar c = true := by
    obtain ⟨c, rest, rfl⟩ := List.exists_cons_of_ne_nil named.nonempty
    exact ⟨c, rest ++ after, rfl, named.chars c List.mem_cons_self⟩
  induction nominal with
  | name named =>
      have first := word named []
      rwa [List.append_nil] at first
  | generic named => exact word named _
  | optional _ inner =>
      obtain ⟨c, rest, first, starts⟩ := inner
      exact ⟨c, rest ++ ['?'], by rw [TypeTree.spelling, first, List.cons_append], starts⟩

theorem commasLead (nominal : type.Nominal) : CommasLead type.spelling := by
  have word {word : List Char} (named : IsWord word) : CommasLead word :=
    commasLead_of_not_mem fun member => absurd (named.chars ',' member) (by decide)
  have single {c : Char} (other : ',' ≠ c) : CommasLead [c] :=
    commasLead_of_not_mem fun member => other (List.mem_singleton.mp member)
  induction nominal with
  | name named => exact word named
  | @generic name arguments named nominal inner =>
      have list : CommasLead (listed ',' (arguments.map TypeTree.spelling)) :=
        commasLead_listed (List.forall_mem_map.mpr inner)
          (List.forall_mem_map.mpr fun type member => (nominal type member).starts)
      have angle : CommasLead ['<'] := single (by decide)
      rw [TypeTree.spelling, TypeTree.spellings_eq_map]
      exact (word named).append (angle.append (list.append (single (by decide))))
  | optional _ inner => exact inner.append (single (by decide))

theorem chars (nominal : type.Nominal) : ∀ c ∈ type.spelling, isAngleChar c = true := by
  have word {word : List Char} (named : IsWord word) : ∀ c ∈ word, isAngleChar c = true :=
    fun c member => by simp [isAngleChar, named.chars c member]
  induction nominal with
  | name named => exact word named
  | @generic name arguments named _ inner =>
      rw [TypeTree.spelling, TypeTree.spellings_eq_map]
      simp only [List.forall_mem_append, List.forall_mem_cons]
      exact ⟨word named, by decide, chars_listed (List.forall_mem_map.mpr inner), by decide,
        List.forall_mem_nil _⟩
  | optional _ inner =>
      exact List.forall_mem_append.mpr ⟨inner, List.forall_mem_singleton.mpr (by decide)⟩

end TypeTree.Nominal

/-! ## Calls as default values -/

/-- A call with type arguments: `f<A, B>(x)`. -/
structure GenericCall where
  callee : String
  types : List TypeTree
  /-- What stands between the parentheses. -/
  inside : List Char

namespace GenericCall

/-- The type arguments as they are written, without the angles around them. -/
def typeText (call : GenericCall) : List Char :=
  listed ',' (call.types.map TypeTree.spelling)

/-- What stands in front of the parentheses. -/
def head (call : GenericCall) : List Char :=
  call.callee.toList ++ ('<' :: (call.typeText ++ ['>']))

def text (call : GenericCall) : List Char :=
  call.head ++ '(' :: (call.inside ++ [')'])

/-- The call without the comments between its parentheses. -/
def bare (call : GenericCall) : GenericCall :=
  { call with inside := (stripComments (call.inside ++ [')'])).dropLast }

@[simp] theorem bare_head (call : GenericCall) : call.bare.head = call.head := rfl

/-- The types are built from names by generics and question marks. The comments between the
parentheses end there, and apart from them brackets are balanced there, and there are no quotes. -/
structure Spelled (call : GenericCall) : Prop where
  callee : IsWord call.callee.toList
  types : ∀ type ∈ call.types, type.Nominal
  comments : ∀ rest, stripComments (call.inside ++ ')' :: rest) =
    call.bare.inside ++ ')' :: stripComments rest
  balanced : Code (fun _ => true) true call.bare.inside
  plain : ∀ c ∈ call.bare.inside, isQuote c = false

end GenericCall

/-- A parameter with or without a default value. -/
structure DefaultedParameter where
  parameter : ParameterText
  default : Option GenericCall

namespace DefaultedParameter

/-- What follows the type. -/
def suffix (defaulted : DefaultedParameter) : List Char :=
  defaulted.default.elim [] fun call => " = ".toList ++ call.text

def text (defaulted : DefaultedParameter) : List Char :=
  defaulted.parameter.spelling ++ defaulted.suffix

def bare (defaulted : DefaultedParameter) : DefaultedParameter :=
  { defaulted with default := defaulted.default.map GenericCall.bare }

structure Spelled (defaulted : DefaultedParameter) : Prop where
  parameter : defaulted.parameter.Spelled
  default : ∀ call ∈ defaulted.default, call.Spelled

end DefaultedParameter

/-! ## Without comments -/

theorem GenericCall.Spelled.chars_head {call : GenericCall} (spelled : call.Spelled) :
    ∀ c ∈ call.head, isAngleChar c = true := by
  have word : ∀ c ∈ call.callee.toList, isAngleChar c = true :=
    fun c member => by simp [isAngleChar, spelled.callee.chars c member]
  have types : ∀ c ∈ call.typeText, isAngleChar c = true :=
    chars_listed (List.forall_mem_map.mpr fun type member => (spelled.types type member).chars)
  simp only [GenericCall.head, List.forall_mem_append, List.forall_mem_cons]
  exact ⟨word, by decide, types, by decide, nofun⟩

theorem GenericCall.Spelled.stripComments {call : GenericCall} (spelled : call.Spelled)
    (rest : List Char) :
    stripComments (call.text ++ rest) = call.bare.text ++ stripComments rest := by
  have opening (text : List Char) : Source.stripComments ('(' :: text) =
      '(' :: Source.stripComments text :=
    stripComments_char (by decide) (commentLength_of_ne (by decide) text)
  simp only [GenericCall.text, List.append_assoc, List.cons_append, List.nil_append]
  rw [stripComments_class spelled.chars_head (by decide) (by decide), opening, spelled.comments,
    GenericCall.bare_head]

theorem DefaultedParameter.Spelled.stripComments {defaulted : DefaultedParameter}
    (spelled : defaulted.Spelled) (rest : List Char) :
    stripComments (defaulted.text ++ rest) = defaulted.bare.text ++ stripComments rest := by
  have parameter (rest : List Char) := stripComments_class spelled.parameter.nested.chars
    (by decide) (by decide) rest
  obtain ⟨parameterText, default⟩ := defaulted
  cases default with
  | none =>
      simp only [DefaultedParameter.text, DefaultedParameter.suffix, DefaultedParameter.bare]
      simpa using parameter rest
  | some call =>
      have equals (rest : List Char) := @stripComments_run " = ".toList (by simp [isQuote]) rest
      have stripped := (spelled.default call rfl).stripComments rest
      simp only [DefaultedParameter.text, DefaultedParameter.suffix, DefaultedParameter.bare,
        Option.map_some, Option.elim_some, List.append_assoc] at parameter ⊢
      rw [parameter, equals, stripped]

/-- The parameters with a comma and a gap between them. -/
def row (gap : List Char) (list : List DefaultedParameter) : List Char :=
  (',' :: gap).intercalate (list.map DefaultedParameter.text)

theorem row_cons_cons (gap : List Char) (first next : DefaultedParameter)
    (list : List DefaultedParameter) :
    row gap (first :: next :: list) = first.text ++ ',' :: (gap ++ row gap (next :: list)) := by
  simp [row, List.intercalate_cons_cons]

theorem row_singleton (gap : List Char) (single : DefaultedParameter) :
    row gap [single] = single.text := by
  simp [row]

theorem stripComments_row {gap : List Char} (blank : IsBlanks gap)
    {list : List DefaultedParameter} (spelled : ∀ defaulted ∈ list, defaulted.Spelled) :
    stripComments (row gap list) = row gap (list.map DefaultedParameter.bare) := by
  have between (rest : List Char) := @stripComments_run (',' :: gap)
    (List.forall_mem_cons.mpr ⟨by decide, fun c member => ⟨isQuote_of_isBlank (blank c member),
      ne_of_class (blank c member) (by decide)⟩⟩) rest
  induction list with
  | nil => exact stripComments_nil
  | cons first list ih =>
      obtain ⟨spelledFirst, later⟩ := List.forall_mem_cons.mp spelled
      cases list with
      | nil =>
          have ended := spelledFirst.stripComments []
          rw [List.append_nil, stripComments_nil, List.append_nil] at ended
          rw [List.map_singleton, row_singleton, row_singleton, ended]
      | cons next list =>
          have rest := ih later
          rw [List.map_cons] at rest
          rw [row_cons_cons, spelledFirst.stripComments, List.map_cons, List.map_cons,
            row_cons_cons, ← rest, ← List.cons_append, between, List.cons_append]

/-! ## Parameters without a type -/

theorem isWord_of_mem_tokens {text : List Char} {pos stop : Nat} {token : Token}
    (plain : backtick ∉ text) (member : token ∈ tokens text pos stop) (word : token.kind = .word) :
    IsWord token.value.toList := by
  induction pos using tokens.induct text stop with
  | case1 pos none =>
      rw [tokens_of_none none] at member
      cases member
  | case2 pos first read ih =>
      rw [tokens_of_some read] at member
      rcases List.mem_cons.mp member with rfl | later
      · exact nextToken_word_isWord plain read word
      · exact ih later

/-- A text that starts with a word has a last word. -/
theorem lastWord_isWord {c : Char} {text : List Char} (plain : backtick ∉ c :: text)
    (word : isWordChar c = true) : IsWord (lastWord (c :: text)).toList := by
  have ne {d : Char} (other : isWordChar d = false) := ne_of_class word other
  have solid := triviaLength_solid (isBlank_of_isWordChar word) (ne (by decide)) text
  have kind : (lexemeAt (text.length + 1) c text).kind = .word := by
    simp only [lexemeAt, isQuote_of_isWordChar word, ne (d := backtick) (by decide),
      ne (d := '@') (by decide), word, Bool.false_eq_true, ↓reduceIte, decide_false,
      Bool.false_and]
  obtain ⟨token, first, isWord⟩ : ∃ token,
      nextToken (c :: text) 0 (c :: text).length = some token ∧ token.kind = .word :=
    ⟨_, @nextToken_solid_whole (c :: text) text c 0 rfl solid, kind⟩
  have words : token ∈ (tokens (c :: text) 0 (c :: text).length).filter
      fun token => token.kind == .word := by
    rw [tokens_of_some first]
    exact List.mem_filter.mpr ⟨List.mem_cons_self, by simp [isWord]⟩
  obtain ⟨last, ends⟩ := List.getLast?_isSome.mpr (List.ne_nil_of_mem words) |>
    Option.isSome_iff_exists.mp
  have among := List.mem_filter.mp (List.mem_of_getLast? ends)
  rw [lastWord, ends]
  exact isWord_of_mem_tokens plain among.1 (by simpa using among.2)

/-- A piece that starts with a word and is sealed is read as a parameter without a type. -/
theorem readPieces_sealed {c : Char} {text : List Char} (word : isWordChar c = true)
    (sealing : Sealed .start (c :: text)) (plain : backtick ∉ c :: text) :
    ∃ name pieces, readPieces (cutPieces [','] .start (' ' :: c :: text)) =
      (readPieces pieces).map (⟨name, ""⟩ :: ·) := by
  have solid := isBlank_of_isWordChar word
  obtain ⟨piece, pieces, cut, start, whole⟩ := sealing.cut
  obtain ⟨piece, rfl⟩ : ∃ rest, piece = c :: rest := by
    rw [cutPieces_char (isQuote_of_isWordChar word)
      fun same => absurd (same ▸ word) (by decide)] at cut
    obtain ⟨first, others, later⟩ := List.exists_cons_of_ne_nil
      (cutPieces_ne_nil [','] (SplitState.start.step c) text)
    rw [later] at cut
    exact ⟨first, (List.cons.inj cut).1.symm⟩
  -- What is left of the piece without the blanks around it.
  generalize kept : dropEndWhile isBlank piece = inner
  have stripped : strip (' ' :: c :: piece) = c :: inner := by
    rw [strip, List.dropWhile_cons_of_pos (by decide), List.dropWhile_cons_of_neg (by simp [solid]),
      dropEndWhile_cons solid, kept]
  have again : strip (c :: inner) = c :: inner := by
    rw [strip, List.dropWhile_cons_of_neg (by simp [solid]), dropEndWhile_cons solid, ← kept,
      dropEndWhile_dropEndWhile]
  have front : c :: inner <+: c :: piece :=
    List.cons_prefix_cons.mpr ⟨rfl, kept ▸ List.rdropWhile_prefix isBlank piece⟩
  have single {separator : Char} (mark : separator = ':' ∨ separator = '=') :
      splitTopLevel [separator] (c :: inner) = [c :: inner] := by
    rw [splitTopLevel, whole separator mark _ front, List.map_singleton, again]
    rfl
  have named := lastWord_isWord (fun member => plain ((front.trans start).subset member)) word
  have full : (lastWord (c :: inner)).isEmpty = false := by
    rw [Bool.eq_false_iff]
    intro empty
    rw [String.isEmpty_iff] at empty
    exact named.nonempty (by rw [empty]; rfl)
  have read : parameter? (strip (' ' :: c :: piece)) =
      .ok (some ⟨lastWord (c :: inner), ""⟩) := by
    rw [stripped, parameter?, single (.inr rfl)]
    simp [single (.inl rfl), full]
  have pass := @cutPieces_blanks ',' .start [' '] (List.all_eq_true.mp rfl) (by decide) rfl
    (c :: text)
  rw [List.singleton_append, cut] at pass
  refine ⟨lastWord (c :: inner), pieces, ?_⟩
  rw [pass, extendFirst, List.singleton_append, readPieces_cons read]
  rfl

/-! ## Single parameters of a row -/

/-- The parameter as it is printed behind `lead`, with this default value. -/
def ParameterText.printed (parameter : ParameterText) (lead : List Char)
    (value : Option (List Char)) : PrintedParameter where
  before := lead
  labels := []
  name := parameter.name.toList
  beforeColon := []
  afterColon := [' ']
  type := parameter.type.spelling
  default := value.map fun value => ⟨[' '], [' '], value⟩
  after := []

section Printed

variable {parameter : ParameterText} {lead : List Char} {value : Option (List Char)}

theorem ParameterText.core_printed : (parameter.printed lead value).core =
    lead ++ (parameter.spelling ++ value.elim [] fun value => " = ".toList ++ value) := by
  cases value <;>
    simp [ParameterText.printed, PrintedParameter.core, PrintedParameter.declaration, labelled,
      PrintedDefault.text, ParameterText.spelling_eq]

theorem ParameterText.declared_printed :
    (parameter.printed lead value).declared = parameter.declared := by
  simp [ParameterText.printed, PrintedParameter.declared, ParameterText.declared]

/-- Code that starts with a word. -/
structure IsCall (value : List Char) : Prop where
  code : Code (fun _ => true) false value
  starts : ∃ c rest, value = c :: rest ∧ isWordChar c = true

theorem ParameterText.Spelled.printed (spelled : parameter.Spelled) (blank : IsBlanks lead)
    (calls : ∀ call ∈ value, IsCall call) :
    (parameter.printed lead value).Written IsBlanks (fun _ => true) where
  before := blank
  labels := nofun
  name := spelled.name
  beforeColon := nofun
  afterColon := (List.all_eq_true.mp rfl : IsBlanks [' '])
  type := spelled.type.spaced
  default := by
    intro default member
    obtain ⟨call, same, rfl⟩ := Option.map_eq_some_iff.mp member
    obtain ⟨code, c, rest, split, word⟩ := calls call same
    have blank : IsBlanks [' '] := List.all_eq_true.mp rfl
    exact ⟨blank, blank, code, c, rest, split, isBlank_of_isWordChar word⟩
  after := nofun

/-- A parameter of a row ends at its comma. -/
theorem ParameterText.Spelled.readPieces_comma (spelled : parameter.Spelled)
    (blank : IsBlanks lead) (calls : ∀ call ∈ value, IsCall call) (more : List Char) :
    readPieces (cutPieces [','] .start (lead ++ (parameter.spelling
        ++ value.elim [] fun value => " = ".toList ++ value) ++ ',' :: more)) =
      (readPieces (cutPieces [','] .start more)).map (parameter.declared :: ·) := by
  have read := (spelled.printed blank calls).readPieces_comma (nofun : IsBlanks []) more
  rwa [core_printed, declared_printed, List.nil_append] at read

theorem ParameterText.Spelled.readPieces_end (spelled : parameter.Spelled)
    (blank : IsBlanks lead) (calls : ∀ call ∈ value, IsCall call) :
    readPieces (cutPieces [','] .start (lead ++ (parameter.spelling
        ++ value.elim [] fun value => " = ".toList ++ value))) = .ok [parameter.declared] := by
  have read := (spelled.printed blank calls).readPieces_end (nofun : IsBlanks [])
  rwa [core_printed, declared_printed, List.append_nil] at read

end Printed

section Calls

variable {call : GenericCall}

theorem isCodeChar_of_isAngleChar {c : Char} (angle : isAngleChar c = true) :
    isCodeChar c = true := by
  have ne {d : Char} (other : isAngleChar d = false) := ne_of_class angle other
  have quote := isQuote_of_class angle (by decide) (by decide)
  simp [isCodeChar, quote, ne (d := '(') (by decide), ne (d := ')') (by decide),
    ne (d := '[') (by decide), ne (d := ']') (by decide), ne (d := '\x7b') (by decide),
    ne (d := '\x7d') (by decide)]

/-- Types without a comma are code, angles and all. -/
theorem code_angles {run rest : List Char} (chars : ∀ c ∈ run, isAngleChar c = true)
    (whole : ',' ∉ run) (code : Code (fun _ => true) false rest) :
    Code (fun _ => true) false (run ++ rest) := by
  refine code.run fun c member => ?_
  have other : c ≠ ',' := fun same => whole (same ▸ member)
  simp [isCodeChar_of_isAngleChar (chars c member), other]

theorem GenericCall.Spelled.starts (spelled : call.Spelled) (rest : List Char) :
    ∃ c more, call.callee.toList ++ rest = c :: more ∧ isWordChar c = true := by
  obtain ⟨c, word, split⟩ := List.exists_cons_of_ne_nil spelled.callee.nonempty
  rw [split]
  exact ⟨c, word ++ rest, rfl, spelled.callee.chars c (split ▸ List.mem_cons_self)⟩

theorem GenericCall.Spelled.comma_callee (spelled : call.Spelled) : ',' ∉ call.callee.toList :=
  fun member => absurd (spelled.callee.chars ',' member) (by decide)

/-- A call without a comma between its type arguments is a default value. -/
theorem GenericCall.Spelled.isCall (spelled : call.Spelled) (whole : ',' ∉ call.typeText) :
    IsCall call.bare.text := by
  have comma : ',' ∉ call.head := by
    simp [GenericCall.head, spelled.comma_callee, whole]
  rw [GenericCall.text, GenericCall.bare_head]
  constructor
  · exact code_angles spelled.chars_head comma (.group .round spelled.balanced .nil)
  · rw [GenericCall.head, List.append_assoc]
    exact spelled.starts _

/-- A comma between the type arguments ends the default value. -/
theorem GenericCall.Spelled.split (spelled : call.Spelled) (comma : ',' ∈ call.typeText) :
    ∃ value c rest, call.bare.head = value ++ ',' :: ' ' :: c :: rest ∧ IsCall value ∧
      isWordChar c = true ∧ ∀ d ∈ c :: rest, isAngleChar d = true := by
  obtain ⟨front, rest, split, first⟩ := List.eq_append_cons_of_mem comma
  have lead : CommasLead call.typeText :=
    commasLead_listed (List.forall_mem_map.mpr fun type member =>
      (spelled.types type member).commasLead)
      (List.forall_mem_map.mpr fun type member => (spelled.types type member).starts)
  obtain ⟨c, more, rfl, word⟩ := lead front rest split
  have whole : call.bare.head =
      (call.callee.toList ++ '<' :: front) ++ ',' :: ' ' :: c :: (more ++ ['>']) := by
    rw [GenericCall.bare_head, GenericCall.head, split]
    simp
  have chars : ∀ d ∈ call.bare.head, isAngleChar d = true := spelled.chars_head
  rw [whole] at chars
  obtain ⟨before, after⟩ := List.forall_mem_append.mp chars
  refine ⟨_, c, _, whole, ⟨?_, spelled.starts _⟩, word, fun d member => ?_⟩
  · have code := code_angles before (by simp [spelled.comma_callee, first]) .nil
    rwa [List.append_nil] at code
  · exact after d (List.mem_cons_of_mem _ (List.mem_cons_of_mem _ member))

end Calls

/-! ## Rows -/

section Rows

variable {defaulted : DefaultedParameter} {lead tail gap : List Char}

/-- No comma stands between the type arguments of the default value. -/
def DefaultedParameter.Whole (defaulted : DefaultedParameter) : Prop :=
  ∀ call ∈ defaulted.default, ',' ∉ call.typeText

/-- There is no quoted name among the arguments of the default value. -/
def DefaultedParameter.Unquoted (defaulted : DefaultedParameter) : Prop :=
  ∀ call ∈ defaulted.default, backtick ∉ call.bare.inside

theorem DefaultedParameter.bare_text (defaulted : DefaultedParameter) :
    defaulted.bare.text = defaulted.parameter.spelling ++
      (defaulted.default.map fun call => call.bare.text).elim []
        fun value => " = ".toList ++ value := by
  obtain ⟨parameter, _ | call⟩ := defaulted <;> rfl

theorem DefaultedParameter.Spelled.calls (spelled : defaulted.Spelled)
    (whole : defaulted.Whole) :
    ∀ value ∈ defaulted.default.map fun call => call.bare.text, IsCall value := by
  intro value member
  obtain ⟨call, same, rfl⟩ := Option.map_eq_some_iff.mp member
  exact (spelled.default call same).isCall (whole call same)

theorem GenericCall.bare_text_append (call : GenericCall) (tail : List Char) :
    call.bare.text ++ tail = call.head ++ '(' :: (call.bare.inside ++ ')' :: tail) := by
  rw [GenericCall.text, GenericCall.bare_head]
  simp

theorem GenericCall.Spelled.sealed_parentheses {call : GenericCall} (spelled : call.Spelled)
    (later : ∀ angle afterDash, Sealed (.angled angle afterDash) tail) (angle : Nat)
    (afterDash : Bool) :
    Sealed (.angled angle afterDash) ('(' :: (call.bare.inside ++ ')' :: tail)) :=
  Source.sealed_parentheses spelled.balanced spelled.plain later angle afterDash

/-- Where an angle is open, a parameter is passed over. -/
theorem DefaultedParameter.Spelled.sealed (spelled : defaulted.Spelled) {angle : Nat}
    (deep : angle ≠ 0) (later : ∀ angle afterDash, Sealed (.angled angle afterDash) tail) :
    Sealed (.angled angle false) (defaulted.bare.text ++ tail) := by
  have inside : (⟨0, 0, 0, angle⟩ : Depths) ≠ .level := by simp [Depths.level, deep]
  obtain ⟨parameter, default⟩ := defaulted
  rw [DefaultedParameter.bare_text, List.append_assoc]
  refine spelled.parameter.nested.sealed inside ?_
  cases default with
  | none => exact later angle false
  | some call =>
      have called := spelled.default call rfl
      have head := sealed_angles called.chars_head (called.sealed_parentheses later) angle false
      rw [← GenericCall.bare_text_append] at head
      have equals : (SplitState.angled angle false).step '=' = .angled angle false := by
        simp [SplitState.step, SplitState.angled, Bracket.opened?, Bracket.closed?, Depths.level,
          deep]
      have value : Sealed (.angled angle false) ('=' :: ' ' :: (call.bare.text ++ tail)) := by
        refine .char (by decide) (fun _ => inside) ?_
        rw [equals]
        exact .char (by decide) (fun _ => inside) head
      exact .char (by decide) (fun _ => inside) value

/-- What follows a parameter of a row. -/
def following (gap : List Char) (list : List DefaultedParameter) : List Char :=
  list.flatMap fun defaulted => ',' :: (gap ++ defaulted.text)

theorem row_cons (gap : List Char) (first : DefaultedParameter) (list : List DefaultedParameter) :
    row gap (first :: list) = first.text ++ following gap list := by
  induction list generalizing first with
  | nil => simp [row_singleton, following]
  | cons next list ih =>
      rw [row_cons_cons, ih]
      simp [following]

theorem sealed_following {list : List DefaultedParameter} (blank : IsBlanks gap)
    (spelled : ∀ defaulted ∈ list, defaulted.Spelled) (angle : Nat) (afterDash : Bool) :
    Sealed (.angled angle afterDash) (following gap (list.map DefaultedParameter.bare)) := by
  induction list generalizing angle afterDash with
  | nil => exact .nil
  | cons first list ih =>
      obtain ⟨spelledFirst, later⟩ := List.forall_mem_cons.mp spelled
      rw [List.map_cons, following, List.flatMap_cons, List.cons_append, List.append_assoc]
      by_cases level : angle = 0
      · subst level
        exact .comma rfl
      · have inside : (⟨0, 0, 0, angle⟩ : Depths) ≠ .level := by simp [Depths.level, level]
        refine .char (by decide) (fun _ => inside) (sealed_blanks blank inside ?_)
        exact spelledFirst.sealed level (ih later)

theorem DefaultedParameter.Spelled.noBacktick (spelled : defaulted.Spelled)
    (unquoted : defaulted.Unquoted) : backtick ∉ defaulted.bare.text := by
  obtain ⟨parameter, default⟩ := defaulted
  have name : backtick ∉ parameter.spelling := fun member =>
    absurd (spelled.parameter.nested.chars _ member) (by decide)
  rw [DefaultedParameter.bare_text]
  cases default with
  | none => simpa using name
  | some call =>
      have called := spelled.default call rfl
      have head : backtick ∉ call.head := fun member =>
        absurd (called.chars_head _ member) (by decide)
      have inside := unquoted call rfl
      have equals : backtick ∉ " = ".toList := by decide
      have marks : backtick ≠ '(' ∧ backtick ≠ ')' := by decide
      have text := call.bare_text_append []
      rw [List.append_nil] at text
      simp only [Option.map_some, Option.elim_some, text]
      simp only [List.mem_append, List.mem_cons, not_or]
      exact ⟨name, equals, head, marks.1, inside, marks.2, nofun⟩

theorem backtick_following {list : List DefaultedParameter} (blank : IsBlanks gap)
    (spelled : ∀ defaulted ∈ list, defaulted.Spelled)
    (unquoted : ∀ defaulted ∈ list, defaulted.Unquoted) :
    backtick ∉ following gap (list.map DefaultedParameter.bare) := by
  have between : backtick ∉ gap := fun member => absurd (blank _ member) (by decide)
  intro member
  obtain ⟨bare, among, inside⟩ := List.mem_flatMap.mp member
  obtain ⟨defaulted, listed, rfl⟩ := List.mem_map.mp among
  have text := (spelled defaulted listed).noBacktick (unquoted defaulted listed)
  have comma : backtick ≠ ',' := by decide
  simp only [List.mem_cons, List.mem_append, comma, between, text, or_self] at inside

/-- A comma between type arguments makes a parameter without a type. -/
theorem DefaultedParameter.Spelled.readPieces_broken (spelled : defaulted.Spelled)
    (broken : ¬ defaulted.Whole) (unquoted : defaulted.Unquoted) (blank : IsBlanks lead)
    (later : ∀ angle afterDash, Sealed (.angled angle afterDash) tail) (plain : backtick ∉ tail) :
    ∃ name pieces, readPieces (cutPieces [','] .start (lead ++ (defaulted.bare.text ++ tail))) =
      (readPieces pieces).map fun found =>
        defaulted.parameter.declared :: ⟨name, ""⟩ :: found := by
  simp only [DefaultedParameter.Whole, not_forall, Decidable.not_not] at broken
  obtain ⟨call, member, comma⟩ := broken
  have called := spelled.default call member
  obtain ⟨value, c, rest, split, isCall, word, chars⟩ := called.split comma
  -- The first parameter ends at the comma, and what follows is sealed from there on.
  have first := spelled.parameter.readPieces_comma blank
    (fun other same => Option.mem_some.mp same ▸ isCall : ∀ call ∈ some value, IsCall call)
    (' ' :: c :: (rest ++ '(' :: (call.bare.inside ++ ')' :: tail)))
  have sealing : Sealed .start (c :: (rest ++ '(' :: (call.bare.inside ++ ')' :: tail))) :=
    sealed_angles chars (called.sealed_parentheses later) 0 false
  have quiet : backtick ∉ c :: (rest ++ '(' :: (call.bare.inside ++ ')' :: tail)) := by
    have inRest : backtick ∉ c :: rest := fun member => absurd (chars _ member) (by decide)
    have inside := unquoted call member
    have marks : backtick ≠ '(' ∧ backtick ≠ ')' := by decide
    simp only [List.mem_cons, not_or] at inRest
    simp [inRest, inside, marks, plain]
  obtain ⟨name, pieces, second⟩ := readPieces_sealed word sealing quiet
  have text : lead ++ (defaulted.bare.text ++ tail) =
      lead ++ (defaulted.parameter.spelling ++ (some value).elim []
          fun value => " = ".toList ++ value) ++
        ',' :: ' ' :: c :: (rest ++ '(' :: (call.bare.inside ++ ')' :: tail)) := by
    rw [DefaultedParameter.bare_text, Option.mem_def.mp member]
    have whole := call.bare_text_append tail
    rw [← GenericCall.bare_head, split] at whole
    simp [whole]
  refine ⟨name, pieces, ?_⟩
  rw [text, first, second]
  cases readPieces pieces <;> rfl

theorem ParameterText.Spelled.sourceType_ne {parameter : ParameterText}
    (spelled : parameter.Spelled) : parameter.declared.sourceType ≠ "" := by
  intro empty
  exact spelled.type.solid.nonempty (String.ofList_injective empty)

theorem map_cons_eq_ok_iff {first : Parameter} {rest : List Parameter}
    {read : Except ReadError (List Parameter)} :
    read.map (first :: ·) = .ok (first :: rest) ↔ read = .ok rest := by
  cases read <;> simp [Except.map]

/-- A row is read as the names and types that stand in it if and only if no comma stands between
the type arguments of a default value. Quoted names matter only behind such a comma, where one
without a character can make up a name that is not read. -/
theorem readPieces_row_iff {list : List DefaultedParameter} (some : list ≠ [])
    (blankLead : IsBlanks lead) (blank : IsBlanks gap)
    (spelled : ∀ defaulted ∈ list, defaulted.Spelled)
    (unquoted : (∀ defaulted ∈ list, defaulted.Whole) ∨
      ∀ defaulted ∈ list, defaulted.Unquoted) :
    readPieces (cutPieces [','] .start (lead ++ row gap (list.map DefaultedParameter.bare))) =
        .ok (list.map fun defaulted => defaulted.parameter.declared) ↔
      ∀ defaulted ∈ list, defaulted.Whole := by
  induction list generalizing lead with
  | nil => exact absurd rfl some
  | cons first list ih =>
      obtain ⟨spelledFirst, later⟩ := List.forall_mem_cons.mp spelled
      simp only [List.forall_mem_cons] at unquoted
      by_cases whole : first.Whole
      · have calls := spelledFirst.calls whole
        simp only [List.map_cons, List.forall_mem_cons, whole, true_and]
        cases list with
        | nil =>
            have read := spelledFirst.parameter.readPieces_end blankLead calls
            rw [← DefaultedParameter.bare_text] at read
            simp [row_singleton, read]
        | cons next list =>
            have read := spelledFirst.parameter.readPieces_comma blankLead calls
              (gap ++ row gap ((next :: list).map DefaultedParameter.bare))
            rw [← DefaultedParameter.bare_text, List.append_assoc] at read
            rw [List.map_cons, row_cons_cons, ← List.map_cons, read, map_cons_eq_ok_iff]
            exact ih (List.cons_ne_nil next list) blank later (unquoted.imp And.right And.right)
      · have bad : ¬ ∀ defaulted ∈ first :: list, defaulted.Whole :=
          fun all => whole (all first List.mem_cons_self)
        obtain ⟨unquotedFirst, others⟩ := unquoted.resolve_left fun all => whole all.1
        obtain ⟨name, pieces, read⟩ := spelledFirst.readPieces_broken whole unquotedFirst blankLead
          (sealed_following blank later) (backtick_following blank later others)
        rw [List.map_cons, row_cons, read, iff_false_right bad, List.map_cons]
        cases readPieces pieces with
        | error cause => nofun
        | ok found =>
            intro same
            have types := (List.cons.inj (Except.ok.inj same)).2
            obtain ⟨next, rest, rfl, declared, -⟩ := List.map_eq_cons_iff.mp types.symm
            exact (later next List.mem_cons_self).parameter.sourceType_ne (by rw [declared])

theorem parameters_row_iff {list : List DefaultedParameter} (some : list ≠ [])
    (blank : IsBlanks gap) (spelled : ∀ defaulted ∈ list, defaulted.Spelled)
    (unquoted : (∀ defaulted ∈ list, defaulted.Whole) ∨
      ∀ defaulted ∈ list, defaulted.Unquoted) :
    parameters (row gap list) =
        .ok (list.map fun defaulted => defaulted.parameter.declared) ↔
      ∀ defaulted ∈ list, defaulted.Whole := by
  have read := readPieces_row_iff some (nofun : IsBlanks []) blank spelled unquoted
  rwa [List.nil_append, ← stripComments_row blank spelled, ← parameters_eq] at read

/-- The same parameters without default values are read as the names and types that they have. -/
theorem parameters_spellings {list : List DefaultedParameter} (some : list ≠ [])
    (blank : IsBlanks gap) (spelled : ∀ defaulted ∈ list, defaulted.Spelled) :
    parameters ((',' :: gap).intercalate
        (list.map fun defaulted => defaulted.parameter.spelling)) =
      .ok (list.map fun defaulted => defaulted.parameter.declared) := by
  have without := @parameters_row_iff gap (list.map fun defaulted => ⟨defaulted.parameter, none⟩)
    (by simpa using some) blank
    (List.forall_mem_map.mpr fun defaulted member => ⟨(spelled defaulted member).parameter, nofun⟩)
    (.inl (List.forall_mem_map.mpr fun defaulted member => nofun))
  have read := without.mpr (List.forall_mem_map.mpr fun defaulted member => nofun)
  simpa [row, DefaultedParameter.text, DefaultedParameter.suffix, Function.comp_def] using read

/-- Default values that call functions with type arguments leave the parameters as they are if no
comma stands between the type arguments, and otherwise they do not. -/
theorem parameters_defaults {list : List DefaultedParameter} (blank : IsBlanks gap)
    (spelled : ∀ defaulted ∈ list, defaulted.Spelled) :
    ((∀ defaulted ∈ list, ∀ call ∈ defaulted.default, ',' ∉ call.typeText) →
      parameters ((',' :: gap).intercalate (list.map DefaultedParameter.text)) =
        parameters ((',' :: gap).intercalate
          (list.map fun defaulted => defaulted.parameter.spelling))) ∧
    ((∀ defaulted ∈ list, ∀ call ∈ defaulted.default, backtick ∉ call.bare.inside) →
      parameters ((',' :: gap).intercalate (list.map DefaultedParameter.text)) =
        parameters ((',' :: gap).intercalate
          (list.map fun defaulted => defaulted.parameter.spelling)) →
      ∀ defaulted ∈ list, ∀ call ∈ defaulted.default, ',' ∉ call.typeText) := by
  by_cases some : list = []
  · subst some
    exact ⟨fun _ => rfl, fun _ _ => nofun⟩
  · rw [parameters_spellings some blank spelled]
    have iff := parameters_row_iff some blank spelled
    exact ⟨fun whole => (iff (.inl whole)).mpr whole, fun unquoted => (iff (.inr unquoted)).mp⟩

end Rows

/-- Without slashes there are no comments between the parentheses. -/
theorem GenericCall.Spelled.of_plain {call : GenericCall} (callee : IsWord call.callee.toList)
    (types : ∀ type ∈ call.types, type.Nominal)
    (balanced : Code (fun _ => true) true call.inside)
    (plain : ∀ c ∈ call.inside, isQuote c = false ∧ c ≠ '/') : call.Spelled := by
  have strip (rest : List Char) := stripComments_run plain rest
  have closing (rest : List Char) : Source.stripComments (')' :: rest) =
      ')' :: Source.stripComments rest :=
    stripComments_char (by decide) (commentLength_of_ne (by decide) rest)
  have bare : call.bare.inside = call.inside := by
    rw [GenericCall.bare, strip, closing, stripComments_nil, List.dropLast_concat]
  refine ⟨callee, types, fun rest => ?_, bare ▸ balanced, fun c member => ?_⟩
  · rw [bare, strip, closing]
  · rw [bare] at member
    exact (plain c member).1

/-! ## Two rows -/

def stringType : TypeTree := .name "String"

def intType : TypeTree := .name "Int"

/-- `sizes: List<Int> = listOf<Int>(1, 2)` and `name: String?` -/
def sizesAndName : List DefaultedParameter :=
  [⟨⟨"sizes", .generic "List" [intType]⟩, some ⟨"listOf", [intType], "1, 2".toList⟩⟩,
    ⟨⟨"name", .optional stringType⟩, none⟩]

theorem sizesAndName_spelled : ∀ defaulted ∈ sizesAndName, defaulted.Spelled := by
  have int : intType.Nominal := .name (by decide)
  have ints : ∀ type ∈ [intType], type.Nominal := List.forall_mem_singleton.mpr int
  have string : stringType.WellNamed := .name (by decide)
  have code : Code (fun _ => true) true ("1, 2".toList ++ []) :=
    .run (List.all_eq_true.mp rfl) .nil
  have call : GenericCall.Spelled ⟨"listOf", [intType], "1, 2".toList⟩ :=
    .of_plain (by decide) ints code (by simp [isQuote])
  refine List.forall_mem_cons.mpr ⟨⟨⟨by decide, ?_⟩, ?_⟩, List.forall_mem_singleton.mpr ?_⟩
  · exact .generic (by decide) fun type member => (ints type member).wellNamed
  · exact fun other same => Option.mem_some.mp same ▸ call
  · exact ⟨⟨by decide, .optional string⟩, fun _ none => absurd none (Option.not_mem_none _)⟩

theorem parameters_sizes_name :
    parameters "sizes: List<Int> = listOf<Int>(1, 2), name: String?".toList =
      parameters "sizes: List<Int>, name: String?".toList := by
  have blank : IsBlanks [' '] := List.all_eq_true.mp rfl
  have whole : ∀ defaulted ∈ sizesAndName, ∀ call ∈ defaulted.default, ',' ∉ call.typeText := by
    simp [sizesAndName, GenericCall.typeText, intType, TypeTree.spelling]
  have text : "sizes: List<Int> = listOf<Int>(1, 2), name: String?".toList =
      [',', ' '].intercalate (sizesAndName.map DefaultedParameter.text) := by decide +kernel
  have without : "sizes: List<Int>, name: String?".toList = [',', ' '].intercalate
      (sizesAndName.map fun defaulted => defaulted.parameter.spelling) := by decide +kernel
  rw [text, without]
  exact (parameters_defaults blank sizesAndName_spelled).1 whole

/-- `a: Int = mapOf<String, Int>()` and `b: Int` -/
def twoInts : List DefaultedParameter :=
  [⟨⟨"a", intType⟩, some ⟨"mapOf", [stringType, intType], []⟩⟩, ⟨⟨"b", intType⟩, none⟩]

theorem twoInts_spelled : ∀ defaulted ∈ twoInts, defaulted.Spelled := by
  have int : intType.Nominal := .name (by decide)
  have string : stringType.Nominal := .name (by decide)
  have call : GenericCall.Spelled ⟨"mapOf", [stringType, intType], []⟩ :=
    .of_plain (by decide)
      (List.forall_mem_cons.mpr ⟨string, List.forall_mem_singleton.mpr int⟩) .nil nofun
  refine List.forall_mem_cons.mpr ⟨⟨⟨by decide, int.wellNamed⟩, ?_⟩,
    List.forall_mem_singleton.mpr ⟨⟨by decide, int.wellNamed⟩, nofun⟩⟩
  exact fun other same => Option.mem_some.mp same ▸ call

/-- The second type argument is read as a parameter. -/
theorem parameters_twoInts :
    (∀ defaulted ∈ twoInts, defaulted.Spelled) ∧
      parameters ([',', ' '].intercalate (twoInts.map DefaultedParameter.text)) =
        .ok [⟨"a", "Int"⟩, ⟨"Int", ""⟩, ⟨"b", "Int"⟩] ∧
      parameters ([',', ' '].intercalate
          (twoInts.map fun defaulted => defaulted.parameter.spelling)) =
        .ok [⟨"a", "Int"⟩, ⟨"b", "Int"⟩] :=
  ⟨twoInts_spelled, by decide +kernel, by decide +kernel⟩

end DartBindings.Declaration

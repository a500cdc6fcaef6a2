import DartBindings.Proofs.Declaration.RespacedParameters
import DartBindings.Proofs.Declaration.SpacedType
import DartBindings.Proofs.Source.Code
import DartBindings.Proofs.Source.Gap

/-!
Printed parameter lists. However parameters are printed, with labels, default values, and blanks
and comments between their parts, the list is read as the names and types that were printed.
-/

set_option autoImplicit false

namespace DartBindings.Declaration

open Text Source Bridge

/-! ## Printing -/

/-- Words with what stands behind each of them. -/
def labelled (labels : List (List Char × List Char)) : List Char :=
  labels.flatMap fun label => label.1 ++ label.2

/-- A default value, with what stands before the equals sign and behind it. -/
structure PrintedDefault where
  before : List Char
  after : List Char
  value : List Char

def PrintedDefault.text (default : PrintedDefault) : List Char :=
  default.before ++ '=' :: (default.after ++ default.value)

/-- A parameter as it is printed. -/
structure PrintedParameter where
  before : List Char
  /-- The words before the name, with what stands behind each of them. -/
  labels : List (List Char × List Char)
  name : List Char
  beforeColon : List Char
  afterColon : List Char
  type : List Char
  default : Option PrintedDefault
  after : List Char

namespace PrintedParameter

/-- From the first word to the end of the type. -/
def declaration (parameter : PrintedParameter) : List Char :=
  labelled parameter.labels ++ (parameter.name ++ (parameter.beforeColon
    ++ (':' :: (parameter.afterColon ++ parameter.type))))

/-- All but what stands behind the parameter. -/
def core (parameter : PrintedParameter) : List Char :=
  parameter.before ++ (parameter.declaration ++ parameter.default.elim [] PrintedDefault.text)

def text (parameter : PrintedParameter) : List Char :=
  parameter.core ++ parameter.after

/-- What the parameter declares: no label and no default value. -/
def declared (parameter : PrintedParameter) : Parameter :=
  ⟨String.ofList parameter.name, String.ofList parameter.type⟩

end PrintedParameter

/-- A default value is code of `allowed` characters and of literals. It starts with no blank. -/
structure PrintedDefault.Written (gap : List Char → Prop) (allowed : Char → Bool)
    (default : PrintedDefault) : Prop where
  before : gap default.before
  after : gap default.after
  value : Code allowed false default.value
  starts : ∃ c rest, default.value = c :: rest ∧ isBlank c = false

/-- The parameter is printed with gaps of this kind around its parts. -/
structure PrintedParameter.Written (gap : List Char → Prop) (allowed : Char → Bool)
    (parameter : PrintedParameter) : Prop where
  before : gap parameter.before
  labels : ∀ label ∈ parameter.labels, IsWord label.1 ∧ gap label.2 ∧ label.2 ≠ []
  name : IsWord parameter.name
  beforeColon : gap parameter.beforeColon
  afterColon : gap parameter.afterColon
  type : SpacedType parameter.type
  default : ∀ default ∈ parameter.default, default.Written gap allowed
  after : gap parameter.after

/-! ## One parameter -/

def IsBlanks (text : List Char) : Prop :=
  ∀ c ∈ text, isBlank c = true

instance (text : List Char) : Decidable (IsBlanks text) :=
  inferInstanceAs (Decidable (∀ c ∈ text, isBlank c = true))

/-- Words with blanks behind each of them. -/
def Labels (labels : List (List Char × List Char)) : Prop :=
  ∀ label ∈ labels, IsWord label.1 ∧ IsBlanks label.2 ∧ label.2 ≠ []

theorem stretch_labelled {labels : List (List Char × List Char)} (named : Labels labels) :
    ∃ spellings, Stretch (fun _ => True) (labelled labels) spellings := by
  induction labels with
  | nil => exact ⟨[], .nil⟩
  | cons label labels ih =>
      obtain ⟨⟨word, blank, some⟩, later⟩ := List.forall_mem_cons.mp named
      obtain ⟨spellings, stretch⟩ := ih later
      have tail : Stretch (fun _ => True) (label.2 ++ labelled labels) spellings :=
        (bare_of_blank blank).stretch.append stretch
      have ends : ∀ d, First (fun _ => True) (label.2 ++ labelled labels) d →
          isWordChar d = false := by
        obtain ⟨c, blanks, split⟩ := List.exists_cons_of_ne_nil some
        rw [split]
        rintro d rfl
        exact isWordChar_of_isBlank (blank d (split ▸ List.mem_cons_self))
      exact ⟨_, by simpa only [labelled, List.flatMap_cons, List.append_assoc] using
        Stretch.token (.word word ends) tail⟩

theorem spelled_word {word : List Char} (named : IsWord word) :
    spelled word = [(.word, String.ofList word)] := by
  have stretch : Stretch (fun _ => False) (word ++ []) [(.word, String.ofList word)] :=
    .token (.word named nofun) .nil
  have read := spelled_append stretch (Fits.nil _)
  have ended : spelled [] = [] := by
    rw [spelled, tokens_of_none (nextToken_of_drop_nil rfl _)]
    rfl
  rwa [List.append_nil, List.append_nil, ended, List.append_nil] at read

/-- The name of a parameter is the last of its words. -/
theorem lastWord_labelled {labels : List (List Char × List Char)} {name : List Char}
    (named : Labels labels) (word : IsWord name) :
    lastWord (labelled labels ++ name) = String.ofList name := by
  obtain ⟨spellings, stretch⟩ := stretch_labelled named
  rw [lastWord_eq, spelled_append stretch fun _ _ => trivial, spelled_word word,
    List.filter_append]
  simp

theorem solid_labelled {labels : List (List Char × List Char)} {name : List Char}
    (named : Labels labels) (word : IsWord name) : IsSolid (labelled labels ++ name) := by
  have ends := isSolid_word word
  cases labels with
  | nil => exact ends
  | cons label labels =>
      have first := isSolid_word (named label List.mem_cons_self).1
      have whole := first.append (label.2 ++ labelled labels) ends
      simpa only [labelled, List.flatMap_cons, List.append_assoc] using whole

theorem through_labelled {labels : List (List Char × List Char)} (named : Labels labels)
    {separator : Char} (proper : isSeparator separator = true) :
    Through separator .level (labelled labels) := by
  induction labels with
  | nil => exact through_nil
  | cons label labels ih =>
      obtain ⟨⟨word, blank, -⟩, later⟩ := List.forall_mem_cons.mp named
      rw [labelled, List.flatMap_cons]
      exact ((through_word word.chars proper).append (through_blanks blank proper)).append
        (ih later)

section Declaration

variable {allowed : Char → Bool} {parameter : PrintedParameter}
  (written : parameter.Written IsBlanks allowed)
include written

theorem PrintedParameter.Written.solid : IsSolid parameter.declaration := by
  have whole := (solid_labelled written.labels written.name).append
    (parameter.beforeColon ++ ':' :: parameter.afterColon) written.type.solid
  simpa only [PrintedParameter.declaration, List.append_assoc, List.cons_append] using whole

/-- A splitter at commas or equals signs passes over a declaration. -/
theorem PrintedParameter.Written.through {separator : Char}
    (proper : isSeparator separator = true) (other : ':' ≠ separator) :
    Through separator .level parameter.declaration := by
  have colon : Through separator .level [':'] :=
    through_char (by decide) (fun same => absurd same other) rfl
  exact (through_labelled written.labels proper).append
    ((through_word written.name.chars proper).append
      ((through_blanks written.beforeColon proper).append
        (colon.append ((through_blanks written.afterColon proper).append
          (written.type.through proper .level)))))

theorem PrintedParameter.Written.splitTopLevel_colon :
    splitTopLevel [':'] parameter.declaration =
      [labelled parameter.labels ++ parameter.name, parameter.type] := by
  have colon : isSeparator ':' = true := rfl
  have label := ((through_labelled written.labels colon).append
    (through_word written.name.chars colon)).append (through_blanks written.beforeColon colon)
  have type := (through_blanks written.afterColon colon).append (written.type.through colon .level)
  have text : parameter.declaration =
      labelled parameter.labels ++ parameter.name ++ parameter.beforeColon
        ++ ':' :: (parameter.afterColon ++ parameter.type ++ []) := by
    simp only [PrintedParameter.declaration, List.append_assoc, List.append_nil]
  have start : SplitState.start = .within .level := rfl
  have after : (⟨.level, false, ':' == '-'⟩ : SplitState) = .within .level := rfl
  have words := @strip_between [] _ _ nofun (solid_labelled written.labels written.name)
    written.beforeColon
  have value := @strip_between _ _ [] written.afterColon written.type.solid nofun
  rw [List.nil_append] at words
  rw [List.append_nil] at value
  have some := (solid_labelled written.labels written.name).nonempty
  rw [splitTopLevel, text, start, label, cutPieces_separator (by decide) rfl rfl, after, type]
  simp only [cutPieces, extendFirst, List.append_nil, List.map_cons, List.map_nil, words, value]
  simp [some, written.type.solid.nonempty]

theorem PrintedParameter.Written.parameter?_of_cut {text : List Char} {rest : List (List Char)}
    (cut : splitTopLevel ['='] text = parameter.declaration :: rest) :
    parameter? text = .ok (some parameter.declared) := by
  have named : (String.ofList parameter.name).isEmpty = false := by
    rw [Bool.eq_false_iff]
    intro empty
    rw [String.isEmpty_iff] at empty
    exact written.name.nonempty (String.ofList_injective empty)
  rw [parameter?, cut]
  simp [written.splitTopLevel_colon, lastWord_labelled written.labels written.name, named,
    PrintedParameter.declared, String.intercalate_singleton]

theorem PrintedParameter.Written.parameter?_declaration :
    parameter? parameter.declaration = .ok (some parameter.declared) :=
  written.parameter?_of_cut
    (splitTopLevel_whole (written.through (by decide) (by decide)) written.solid)

/-- What follows an equals sign is dropped, whatever it is. -/
theorem PrintedParameter.Written.parameter?_default {gap : List Char} (blank : IsBlanks gap)
    (value : List Char) :
    parameter? (parameter.declaration ++ (gap ++ '=' :: value)) =
      .ok (some parameter.declared) := by
  have equals : isSeparator '=' = true := rfl
  have passed := (written.through equals (by decide)).append (through_blanks blank equals)
  have declaration := @strip_between [] _ _ nofun written.solid blank
  rw [List.nil_append] at declaration
  have start : SplitState.start = .within .level := rfl
  have after : (⟨.level, false, '=' == '-'⟩ : SplitState) = .start := rfl
  have cut : splitTopLevel ['='] (parameter.declaration ++ (gap ++ '=' :: value)) =
      parameter.declaration :: splitTopLevel ['='] value := by
    rw [splitTopLevel, ← List.append_assoc, start, passed, cutPieces_separator (by decide) rfl rfl,
      after]
    simp [splitTopLevel, extendFirst, declaration, written.solid.nonempty]
  exact written.parameter?_of_cut cut

end Declaration

/-! ## The pieces of a list -/

/-- What the pieces between the commas declare. -/
def readPieces (pieces : List (List Char)) : Except ReadError (List Parameter) :=
  (pieces.mapM fun piece => parameter? (strip piece)).map fun found => found.filterMap id

theorem readPieces_cons {piece : List Char} {found : Option Parameter}
    (read : parameter? (strip piece) = .ok found) (pieces : List (List Char)) :
    readPieces (piece :: pieces) = (readPieces pieces).map (found.toList ++ ·) := by
  rw [readPieces, readPieces, List.mapM_cons, read]
  cases pieces.mapM fun piece => parameter? (strip piece) with
  | error cause => rfl
  | ok others => cases found <;> rfl

theorem readPieces_error {piece : List Char} {cause : ReadError}
    (read : parameter? (strip piece) = .error cause) (pieces : List (List Char)) :
    readPieces (piece :: pieces) = .error cause := by
  rw [readPieces, List.mapM_cons, read]
  rfl

theorem parameter?_nil : parameter? [] = .ok none := by
  simp [parameter?, splitTopLevel, cutPieces, strip, dropEndWhile]

theorem readPieces_blank {piece : List Char} (blank : strip piece = [])
    (pieces : List (List Char)) : readPieces (piece :: pieces) = readPieces pieces := by
  have none : parameter? (strip piece) = .ok none := by rw [blank, parameter?_nil]
  rw [readPieces_cons none]
  cases readPieces pieces <;> rfl

/-- Pieces without text declare nothing, so the list need not be rid of them. -/
theorem readPieces_filter (pieces : List (List Char)) :
    ((((pieces.map strip).filter fun piece => !piece.isEmpty).mapM parameter?).map
      fun found => found.filterMap id) = readPieces pieces := by
  induction pieces with
  | nil => rfl
  | cons piece pieces ih =>
      by_cases blank : strip piece = []
      · have dropped : (((piece :: pieces).map strip).filter fun piece => !piece.isEmpty) =
            (pieces.map strip).filter fun piece => !piece.isEmpty := by simp [blank]
        rw [dropped, ih, readPieces_blank blank]
      · have kept : (((piece :: pieces).map strip).filter fun piece => !piece.isEmpty) =
            strip piece :: (pieces.map strip).filter fun piece => !piece.isEmpty := by simp [blank]
        rw [kept, List.mapM_cons]
        cases read : parameter? (strip piece) with
        | error cause =>
            rw [readPieces_error read]
            rfl
        | ok found =>
            rw [readPieces_cons read, ← ih]
            cases ((pieces.map strip).filter fun piece => !piece.isEmpty).mapM parameter? with
            | error cause => rfl
            | ok others => cases found <;> rfl

theorem parameters_eq (text : List Char) :
    parameters text = readPieces (cutPieces [','] .start (stripComments text)) :=
  readPieces_filter _

/-! ## Gaps -/

section Gaps

variable {gap rest : List Char}

/-- Before a token, a gap becomes blanks when comments are taken out. -/
theorem stripComments_gap (trivia : IsTrivia gap) :
    ∃ blanks, IsBlanks blanks ∧ (blanks = [] → gap = []) ∧ ∀ rest, triviaLength rest = 0 →
      stripComments (gap ++ rest) = blanks ++ stripComments rest := by
  rcases trivia.stripComments_trivia with ⟨blank, same⟩ | ⟨blanks, some, blank, same⟩
  · exact ⟨gap, blank, id, fun rest _ => same rest⟩
  · refine ⟨blanks, blank, fun none => absurd none some, fun rest solid => ?_⟩
    rw [same, solid, List.drop_zero]

/-- Nothing but blanks is left of trivia at the end, where a comment may be left open. -/
theorem stripComments_ending (trivia : triviaLength gap = gap.length) :
    IsBlanks (stripComments gap) := by
  obtain ⟨blanks, blank, -, same⟩ := stripComments_start gap
  rw [same, trivia, List.drop_length, stripComments_nil, List.append_nil]
  exact blank

theorem isTrivia_of_blank (blank : IsBlanks gap) : IsTrivia gap :=
  (bare_of_blank blank).stretch

theorem fits_triviaLength (trivia : triviaLength gap ≠ 0) : Fits NoQuote gap := by
  rintro c first
  obtain ⟨rest, rfl⟩ := List.head?_eq_some_iff.mp first
  cases quote : isQuote c with
  | false => exact quote
  | true => exact absurd (triviaLength_quote quote rest) trivia

theorem fits_of_isTrivia (trivia : IsTrivia gap) : Fits NoQuote gap := by
  have whole := trivia.trivia []
  rw [List.append_nil, triviaLength_nil, Nat.zero_add] at whole
  cases gap with
  | nil => exact Fits.nil NoQuote
  | cons c gap => exact fits_triviaLength (by simp [whole])

theorem triviaLength_word {word : List Char} (named : IsWord word) (rest : List Char) :
    triviaLength (word ++ rest) = 0 := by
  obtain ⟨c, word, rfl⟩ := List.exists_cons_of_ne_nil named.nonempty
  have first := named.chars c List.mem_cons_self
  exact triviaLength_solid (isBlank_of_isWordChar first) (ne_of_class first (by decide)) _

theorem SpacedType.triviaLength {type : List Char} (typed : SpacedType type) (rest : List Char) :
    triviaLength (type ++ rest) = 0 := by
  obtain ⟨c, tail, rfl, solid⟩ := typed.solid.first
  have char := typed.chars c List.mem_cons_self
  exact triviaLength_solid solid (ne_of_class char (by decide)) _

theorem triviaLength_labelled {labels : List (List Char × List Char)}
    (named : ∀ label ∈ labels, IsWord label.1) (solid : triviaLength rest = 0) :
    triviaLength (labelled labels ++ rest) = 0 := by
  cases labels with
  | nil => exact solid
  | cons label labels =>
      rw [labelled, List.flatMap_cons, List.append_assoc, List.append_assoc]
      exact triviaLength_word (named label List.mem_cons_self) _

theorem PrintedDefault.Written.triviaLength {gap : List Char → Prop} {default : PrintedDefault}
    (written : default.Written gap (· != '/')) (rest : List Char) :
    triviaLength (default.value ++ rest) = 0 := by
  obtain ⟨c, tail, split, solid⟩ := written.starts
  have slash : c ≠ '/' := written.value.first_ne rfl split
  rw [split]
  exact triviaLength_solid solid slash _

end Gaps

/-! ## Without comments -/

theorem stripComments_labelled {labels : List (List Char × List Char)}
    (named : ∀ label ∈ labels, IsWord label.1 ∧ IsTrivia label.2 ∧ label.2 ≠ []) :
    ∃ bare, Labels bare ∧ ∀ rest, triviaLength rest = 0 →
      stripComments (labelled labels ++ rest) = labelled bare ++ stripComments rest := by
  induction labels with
  | nil => exact ⟨[], nofun, fun _ _ => rfl⟩
  | cons label labels ih =>
      obtain ⟨⟨word, trivia, some⟩, later⟩ := List.forall_mem_cons.mp named
      obtain ⟨bare, bareLabels, same⟩ := ih later
      obtain ⟨blanks, blank, full, gap⟩ := stripComments_gap trivia
      refine ⟨(label.1, blanks) :: bare, ?_, fun rest solid => ?_⟩
      · exact List.forall_mem_cons.mpr ⟨⟨word, blank, fun none => some (full none)⟩, bareLabels⟩
      · have next : triviaLength (labelled labels ++ rest) = 0 :=
          triviaLength_labelled (fun label member => (later label member).1) solid
        simp only [labelled, List.flatMap_cons, List.append_assoc] at next same ⊢
        rw [stripComments_class word.chars (by decide) (by decide), gap _ next, same rest solid]

theorem PrintedDefault.Written.bare {default : PrintedDefault}
    (written : default.Written IsTrivia (· != '/')) :
    ∃ bare : PrintedDefault, bare.Written IsBlanks (· != '/') ∧ ∀ rest, Fits NoQuote rest →
      stripComments (default.text ++ rest) = bare.text ++ stripComments rest := by
  obtain ⟨before, blankBefore, -, gapBefore⟩ := stripComments_gap written.before
  obtain ⟨after, blankAfter, -, gapAfter⟩ := stripComments_gap written.after
  refine ⟨⟨before, after, default.value⟩, ⟨blankBefore, blankAfter, written.value, written.starts⟩,
    fun rest fits => ?_⟩
  have equals (text : List Char) : stripComments ('=' :: text) = '=' :: stripComments text :=
    stripComments_char (by decide) (commentLength_of_ne (by decide) text)
  simp only [PrintedDefault.text, List.append_assoc, List.cons_append]
  rw [gapBefore _ (triviaLength_solid (by decide) (by decide) _), equals,
    gapAfter _ (written.triviaLength rest), written.value.stripComments rfl fits]

/-- What is left of a parameter without comments. -/
structure PrintedParameter.Bare (parameter bare : PrintedParameter) : Prop where
  written : bare.Written IsBlanks (· != '/')
  declared : bare.declared = parameter.declared
  core : ∀ rest, Fits NoQuote rest →
    stripComments (parameter.core ++ rest) = bare.core ++ stripComments rest

theorem bare_default {default : Option PrintedDefault}
    (written : ∀ value ∈ default, value.Written IsTrivia (· != '/')) :
    ∃ bare : Option PrintedDefault, (∀ value ∈ bare, value.Written IsBlanks (· != '/')) ∧
      ∀ rest, Fits NoQuote rest → stripComments (default.elim [] PrintedDefault.text ++ rest) =
        bare.elim [] PrintedDefault.text ++ stripComments rest := by
  cases default with
  | none => exact ⟨none, nofun, fun _ _ => rfl⟩
  | some default =>
      obtain ⟨bare, bareWritten, same⟩ := (written default rfl).bare
      exact ⟨some bare, fun _ member => Option.mem_some.mp member ▸ bareWritten, same⟩

theorem PrintedParameter.Written.bare {parameter : PrintedParameter}
    (written : parameter.Written IsTrivia (· != '/')) : ∃ bare, parameter.Bare bare := by
  obtain ⟨before, blankBefore, -, gapBefore⟩ := stripComments_gap written.before
  obtain ⟨labels, named, sameLabels⟩ := stripComments_labelled written.labels
  obtain ⟨beforeColon, blankName, -, gapName⟩ := stripComments_gap written.beforeColon
  obtain ⟨afterColon, blankType, -, gapType⟩ := stripComments_gap written.afterColon
  obtain ⟨default, defaults, sameDefault⟩ := bare_default written.default
  refine ⟨⟨before, labels, parameter.name, beforeColon, afterColon, parameter.type, default, []⟩,
    ⟨blankBefore, named, written.name, blankName, blankType, written.type, defaults, nofun⟩, rfl,
    fun rest fits => ?_⟩
  have colon (text : List Char) : stripComments (':' :: text) = ':' :: stripComments text :=
    stripComments_char (by decide) (commentLength_of_ne (by decide) text)
  have name (text : List Char) : triviaLength (parameter.name ++ text) = 0 :=
    triviaLength_word written.name text
  have label (text : List Char) : triviaLength (labelled parameter.labels ++
      (parameter.name ++ text)) = 0 :=
    triviaLength_labelled (fun label member => (written.labels label member).1) (name text)
  simp only [PrintedParameter.core, PrintedParameter.declaration, List.append_assoc,
    List.cons_append]
  rw [gapBefore _ (label _), sameLabels _ (name _),
    stripComments_class written.name.chars (by decide) (by decide),
    gapName _ (triviaLength_solid (by decide) (by decide) _), colon,
    gapType _ (written.type.triviaLength _), written.type.stripComments, sameDefault rest fits]

/-! ## The list -/

section Blanks

variable {allowed : Char → Bool} {parameter : PrintedParameter} {blanks : List Char}

/-- Where the splitter stands behind a parameter. -/
theorem PrintedParameter.Written.cutPieces (written : parameter.Written IsBlanks allowed)
    (blank : IsBlanks blanks) : ∃ inDefault, ∀ rest, Fits NoQuote rest →
      cutPieces [','] .start (parameter.core ++ (blanks ++ rest)) =
        extendFirst (parameter.core ++ blanks)
          (cutPieces [','] ⟨.level, inDefault, false⟩ rest) := by
  have comma : isSeparator ',' = true := rfl
  have front : Through ',' .level (parameter.before ++ parameter.declaration) :=
    (through_blanks written.before comma).append (written.through comma (by decide))
  have start : SplitState.start = .within .level := rfl
  cases default : parameter.default with
  | none =>
      refine ⟨false, fun rest _ => ?_⟩
      have passed := front.append (through_blanks blank comma)
      have text : parameter.core ++ (blanks ++ rest) =
          parameter.before ++ parameter.declaration ++ blanks ++ rest := by
        simp [PrintedParameter.core, default]
      rw [text, start, passed]
      simp [PrintedParameter.core, default, SplitState.within]
  | some value =>
      refine ⟨true, fun rest fits => ?_⟩
      obtain ⟨before, after, code, -⟩ := written.default value default
      have passed := front.append (through_blanks before comma)
      have text : parameter.core ++ (blanks ++ rest) =
          parameter.before ++ parameter.declaration ++ value.before
            ++ '=' :: (value.after ++ (value.value ++ (blanks ++ rest))) := by
        simp [PrintedParameter.core, PrintedDefault.text, default]
      have equals : (SplitState.within .level).step '=' = .default .level := rfl
      have outside : false = true → Depths.level ≠ .level :=
        fun inside => absurd inside Bool.false_ne_true
      have fitsBlanks : Fits NoQuote (blanks ++ rest) :=
        (fits_of_isTrivia (isTrivia_of_blank blank)).append fits
      rw [text, start, passed, cutPieces_char (by decide) (by decide), equals,
        cutPieces_blanks after (by decide) rfl, code.cutPieces outside fitsBlanks,
        cutPieces_blanks blank (by decide) rfl]
      simp only [extendFirst_extendFirst]
      simp [PrintedParameter.core, PrintedDefault.text, default, SplitState.default]

/-- A parameter is read without what stands around it. -/
theorem PrintedParameter.Written.read (written : parameter.Written IsBlanks allowed)
    (blank : IsBlanks blanks) :
    parameter? (strip (parameter.core ++ blanks)) = .ok (some parameter.declared) := by
  cases default : parameter.default with
  | none =>
      have text : parameter.core ++ blanks =
          parameter.before ++ (parameter.declaration ++ blanks) := by
        simp [PrintedParameter.core, default]
      rw [text, strip_between written.before written.solid blank, written.parameter?_declaration]
  | some value =>
      obtain ⟨before, -⟩ := written.default value default
      have text : parameter.core ++ blanks = parameter.before ++
          ((parameter.declaration ++ value.before)
            ++ '=' :: (value.after ++ (value.value ++ blanks))) := by
        simp [PrintedParameter.core, PrintedDefault.text, default]
      have first : ∃ c rest, parameter.declaration ++ value.before = c :: rest ∧
          isBlank c = false := by
        obtain ⟨c, rest, split, solid⟩ := written.solid.first
        exact ⟨c, rest ++ value.before, by rw [split, List.cons_append], solid⟩
      rw [text, strip_marked written.before first (by decide), List.append_assoc,
        written.parameter?_default before]

/-- A parameter ends at the comma behind it. -/
theorem PrintedParameter.Written.readPieces_comma (written : parameter.Written IsBlanks allowed)
    (blank : IsBlanks blanks) (more : List Char) :
    readPieces (Source.cutPieces [','] .start (parameter.core ++ (blanks ++ ',' :: more))) =
      (readPieces (Source.cutPieces [','] .start more)).map (parameter.declared :: ·) := by
  obtain ⟨inDefault, cut⟩ := written.cutPieces blank
  have after : (⟨.level, false, ',' == '-'⟩ : SplitState) = .start := rfl
  have comma : NoQuote ',' := rfl
  rw [cut _ (fits_cons comma more), cutPieces_separator (by decide) rfl rfl, after, extendFirst,
    List.append_nil, readPieces_cons (written.read blank)]
  rfl

theorem PrintedParameter.Written.readPieces_end (written : parameter.Written IsBlanks allowed)
    (blank : IsBlanks blanks) :
    readPieces (Source.cutPieces [','] .start (parameter.core ++ blanks)) =
      .ok [parameter.declared] := by
  obtain ⟨inDefault, cut⟩ := written.cutPieces blank
  have whole := cut [] (Fits.nil NoQuote)
  rw [List.append_nil, Source.cutPieces, extendFirst, List.append_nil] at whole
  rw [whole, readPieces_cons (written.read blank)]
  rfl

end Blanks

section Printed

variable {parameter : PrintedParameter} {ending : List Char}

/-- A printed parameter is the first that is read, whatever comes after its comma. -/
theorem parameters_comma (written : parameter.Written IsTrivia (· != '/')) (more : List Char) :
    parameters (parameter.text ++ ',' :: more) =
      (parameters more).map (parameter.declared :: ·) := by
  obtain ⟨bare, bareWritten, declared, core⟩ := written.bare
  obtain ⟨blanks, blank, -, gap⟩ := stripComments_gap written.after
  have comma : NoQuote ',' := rfl
  have fits : Fits NoQuote (parameter.after ++ ',' :: more) :=
    (fits_of_isTrivia written.after).append (fits_cons comma more)
  have char : stripComments (',' :: more) = ',' :: stripComments more :=
    stripComments_char comma (commentLength_of_ne (by decide) more)
  rw [parameters_eq, PrintedParameter.text, List.append_assoc, core _ fits,
    gap _ (triviaLength_solid (by decide) (by decide) _), char,
    bareWritten.readPieces_comma blank, declared, ← parameters_eq]

theorem parameters_end (written : parameter.Written IsTrivia (· != '/'))
    (trivia : triviaLength ending = ending.length) :
    parameters (parameter.text ++ ending) = .ok [parameter.declared] := by
  obtain ⟨bare, bareWritten, declared, core⟩ := written.bare
  have whole : triviaLength (parameter.after ++ ending) = (parameter.after ++ ending).length := by
    rw [written.after.trivia, trivia, List.length_append, Nat.add_comm]
  have fits : Fits NoQuote (parameter.after ++ ending) := by
    generalize parameter.after ++ ending = text at whole ⊢
    cases text with
    | nil => exact Fits.nil NoQuote
    | cons c rest => exact fits_triviaLength (by simp [whole])
  rw [parameters_eq, PrintedParameter.text, List.append_assoc, core _ fits,
    bareWritten.readPieces_end (stripComments_ending whole), declared]

theorem parameters_trivia (trivia : triviaLength ending = ending.length) :
    parameters ending = .ok [] := by
  have blank := stripComments_ending trivia
  have whole := cutPieces_blanks blank (by decide : isBlank ',' = false) (rfl :
    SplitState.start.afterDash = false) []
  have none : strip (stripComments ending) = [] := strip_eq_nil_iff.mpr blank
  rw [List.append_nil, cutPieces, extendFirst, List.append_nil] at whole
  rw [parameters_eq, whole, readPieces_blank none]
  rfl

theorem parameters_leading_comma (more : List Char) :
    parameters (',' :: more) = parameters more := by
  have char : stripComments (',' :: more) = ',' :: stripComments more :=
    stripComments_char (by decide) (commentLength_of_ne (by decide) more)
  have after : (⟨.level, false, ',' == '-'⟩ : SplitState) = .start := rfl
  rw [parameters_eq, char, cutPieces_separator (by decide) rfl rfl, after,
    readPieces_blank rfl, ← parameters_eq]

/-- A printed list of parameters is read as the names and types that were printed. The commas
between the parameters may be followed by one at the end, and a comment at the end of the list may
be left open. -/
theorem parameters_printed {list : List PrintedParameter}
    (written : ∀ parameter ∈ list, parameter.Written IsTrivia (· != '/')) (comma : Bool)
    (trivia : triviaLength ending = ending.length) :
    parameters ([','].intercalate (list.map PrintedParameter.text)
        ++ ((if comma then [','] else []) ++ ending)) =
      .ok (list.map PrintedParameter.declared) := by
  have comma_ending : parameters (',' :: ending) = .ok [] := by
    rw [parameters_leading_comma, parameters_trivia trivia]
  induction list with
  | nil =>
      cases comma with
      | false => exact parameters_trivia trivia
      | true => exact comma_ending
  | cons parameter list ih =>
      obtain ⟨first, later⟩ := List.forall_mem_cons.mp written
      cases list with
      | nil =>
          rw [List.map_singleton, List.map_singleton, List.intercalate_singleton]
          cases comma with
          | false => exact parameters_end first trivia
          | true =>
              have read := parameters_comma first ending
              rwa [parameters_trivia trivia] at read
      | cons next list =>
          rw [List.map_cons, List.map_cons, List.map_cons, List.intercalate_cons_cons,
            List.append_assoc, List.append_assoc]
          have read := parameters_comma first ([','].intercalate
            ((next :: list).map PrintedParameter.text) ++ ((if comma then [','] else []) ++ ending))
          rwa [ih later] at read

end Printed

/-- `inout total amount: /* cents */ Map<K, (Int) -> Unit>? = f("a/b, c", x < 1)` -/
def amountParameter : PrintedParameter where
  before := []
  labels := [("inout".toList, " ".toList), ("total".toList, " ".toList)]
  name := "amount".toList
  beforeColon := []
  afterColon := ' ' :: ("/* cents */".toList ++ " ".toList)
  type := "Map<K, (Int) -> Unit>?".toList
  default := some ⟨" ".toList, " ".toList, "f(\"a/b, c\", x < 1)".toList⟩
  after := []

/-- `rates : [K: V]!` on a line of its own -/
def ratesParameter : PrintedParameter where
  before := "\n".toList
  labels := []
  name := "rates".toList
  beforeColon := " ".toList
  afterColon := " ".toList
  type := "[K: V]!".toList
  default := none
  after := []

theorem amountParameter_written : amountParameter.Written IsTrivia (· != '/') where
  before := .nil
  labels := by
    have blank : IsTrivia " ".toList := isTrivia_of_blank (List.all_eq_true.mp rfl)
    refine List.forall_mem_cons.mpr ⟨⟨by decide, blank, by decide⟩, ?_⟩
    exact List.forall_mem_singleton.mpr ⟨by decide, blank, by decide⟩
  name := by decide
  beforeColon := .nil
  afterColon := .blank rfl (.comment (fun _ => rfl) (isTrivia_of_blank (List.all_eq_true.mp rfl)))
  type := by
    have key : SpacedType "K".toList := .name (by decide)
    have int : SpacedType "Int".toList := .name (by decide)
    have unit : SpacedType "Unit".toList := .name (by decide)
    have tight (text : List Char) : Spaced.Blank ⟨[], text, []⟩ := ⟨nofun, nofun⟩
    have apart (text : List Char) : Spaced.Blank ⟨" ".toList, text, []⟩ :=
      ⟨(List.all_eq_true.mp rfl : IsBlanks " ".toList), nofun⟩
    have function := SpacedType.function (List.forall_mem_singleton.mpr (tight "Int".toList))
      (List.forall_mem_singleton.mpr int) (List.all_eq_true.mp rfl : IsBlanks " ".toList)
      (List.all_eq_true.mp rfl : IsBlanks " ".toList) unit
    have map := SpacedType.generic (by decide : IsWord "Map".toList) (nofun : IsBlanks [])
      (List.forall_mem_cons.mpr ⟨tight "K".toList, List.forall_mem_singleton.mpr (apart _)⟩)
      (List.forall_mem_cons.mpr ⟨key, List.forall_mem_singleton.mpr function⟩)
    exact .marked map (.inl rfl)
  default := by
    rintro value ⟨⟩
    have blank : IsTrivia " ".toList := isTrivia_of_blank (List.all_eq_true.mp rfl)
    refine ⟨blank, blank, ?_, 'f', _, rfl, rfl⟩
    have literal : ClosedLiteral ('"' :: ("a/b, c".toList ++ ['"'])) :=
      closedLiteral_plain (List.all_eq_true.mp rfl)
    have fits : Fits NoQuote (", x < 1".toList ++ []) := fits_cons (rfl : NoQuote ',') _
    have arguments : Code (· != '/') true
        ('"' :: ("a/b, c".toList ++ ['"']) ++ (", x < 1".toList ++ [])) :=
      .literal rfl literal fits (.run (List.all_eq_true.mp rfl) .nil)
    exact .char rfl rfl nofun (.group .round arguments .nil)
  after := .nil

theorem ratesParameter_written : ratesParameter.Written IsTrivia (· != '/') where
  before := isTrivia_of_blank (List.all_eq_true.mp rfl)
  labels := nofun
  name := by decide
  beforeColon := isTrivia_of_blank (List.all_eq_true.mp rfl)
  afterColon := isTrivia_of_blank (List.all_eq_true.mp rfl)
  type := by
    have key : SpacedType "K".toList := .name (by decide)
    have value : SpacedType "V".toList := .name (by decide)
    have tight : Spaced.Blank ⟨[], "K".toList, []⟩ := ⟨nofun, nofun⟩
    have apart : Spaced.Blank ⟨" ".toList, "V".toList, []⟩ :=
      ⟨(List.all_eq_true.mp rfl : IsBlanks " ".toList), nofun⟩
    exact .marked (.dictionary tight apart key value) (.inr rfl)
  default := nofun
  after := .nil

/-- Two parameters, with a comma and a comment behind them. -/
theorem parameters_amount_rates :
    parameters ("inout total amount: /* cents */ Map<K, (Int) -> Unit>? = f(\"a/b, c\", x < 1),"
        ++ "\nrates : [K: V]!, // last").toList =
      .ok [⟨"amount", "Map<K, (Int) -> Unit>?"⟩, ⟨"rates", "[K: V]!"⟩] := by
  have ending : triviaLength (' ' :: "// last".toList) = (' ' :: "// last".toList).length := by
    rw [triviaLength_blank rfl, triviaLength_of_commentLength rfl, List.length_cons]
  have written : ∀ parameter ∈ [amountParameter, ratesParameter],
      parameter.Written IsTrivia (· != '/') :=
    List.forall_mem_cons.mpr
      ⟨amountParameter_written, List.forall_mem_singleton.mpr ratesParameter_written⟩
  have text : ("inout total amount: /* cents */ Map<K, (Int) -> Unit>? = f(\"a/b, c\", x < 1),"
      ++ "\nrates : [K: V]!, // last").toList =
      [','].intercalate ([amountParameter, ratesParameter].map PrintedParameter.text)
        ++ ((if true then [','] else []) ++ ' ' :: "// last".toList) := by decide +kernel
  rw [text, parameters_printed written true ending]
  rfl

end DartBindings.Declaration

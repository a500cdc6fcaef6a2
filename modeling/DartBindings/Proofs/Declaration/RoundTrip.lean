import DartBindings.Proofs.Declaration.Lines
import DartBindings.Proofs.Declaration.Overloads

/-!
Extraction undoes writing. A file in canonical form declares the entities that the rules of
exposure prescribe, in order, and is extracted without a report.
-/

set_option autoImplicit false

namespace DartBindings.Declaration

open Text Source Bridge

variable {dialect : Dialect} {text after : List Char} {extent : Extent} {pos stop : Nat}

/-! ## Extractions without a report -/

@[simp] theorem Extraction.found_andThen {α β : Type} (value : α) (next : α → Extraction β) :
    (Extraction.found value).andThen next = next value := by
  simp [Extraction.andThen, Extraction.found]

@[simp] theorem Extraction.map_found {α β : Type} (change : α → β) (value : α) :
    (Extraction.found value).map change = .found (change value) := rfl

/-! ## Legible classes -/

/-- Canonical form, but for members that share a name. -/
structure ClassText.Legible (dialect : Dialect) (entry : ClassText) : Prop where
  name : IsName entry.name
  exposable : ∀ ending ∈ dialect.exemptEndings, ¬ ending.toList <:+ entry.name.toList
  members : ∀ member ∈ entry.members, member.Canonical dialect

theorem ClassText.Canonical.legible {entry : ClassText} (canonical : entry.Canonical dialect) :
    entry.Legible dialect :=
  ⟨canonical.name, canonical.exposable, canonical.members⟩

/-- The entity of a class with these members, if there are any. -/
def entityWith (dialect : Dialect) (className : String) (callables : List Callable) :
    Option Entity :=
  if callables.isEmpty then none else some ⟨className, callables, dialect.origin⟩

/-- What a class with these members comes to: the first member of each name is kept, and each
other one is reported. -/
def settled (dialect : Dialect) (className : String) (callables : List Callable) :
    Extraction (Option Entity) :=
  ⟨(dropped [] callables).map fun callable => .duplicateMember className callable.name,
    .ok (entityWith dialect className (kept [] callables))⟩

theorem Exposes.settled {marked : Bool} {headers : List Header} {callables : List Callable}
    (exposes : Exposes dialect text marked stop headers callables) (className : String) :
    (Declaration.callables dialect text className marked stop [] headers).map
        (entityWith dialect className) = settled dialect className callables := by
  rw [exposes.callables_eq className []]
  rfl

theorem ClassText.Canonical.settled {entry : ClassText} (canonical : entry.Canonical dialect) :
    settled dialect entry.name (entry.callables dialect) = .found (entry.entity? dialect) := by
  have fresh : ∀ callable ∈ entry.callables dialect, callable.name ∉ [] :=
    fun _ _ => List.not_mem_nil
  obtain ⟨all, none⟩ := kept_of_nodup canonical.distinct fresh
  rw [Declaration.settled, all, none]
  rfl

/-- What the classes of a file come to, one after the other. -/
def settledAll (dialect : Dialect) : List ClassText → Extraction (List Entity)
  | [] => .found []
  | entry :: rest =>
    (settled dialect entry.name (entry.callables dialect)).andThen fun entity =>
      (settledAll dialect rest).map fun later => entity.toList ++ later

/-! ## Bodies -/

/-- The lines of a body run up to the brace that closes it. -/
theorem closingIndex_lines {lines : List Char} (level : Level lines) (rest : List Char) :
    closingIndex (some '\x7b') (some '\x7d') 1 ((lines ++ ['\n']) ++ '\x7d' :: rest) =
      some (lines ++ ['\n']).length := by
  have newline : ∀ c ∈ ['\n'], Inert (some '\x7b') (some '\x7d') c := by simp [Inert, isQuote]
  rw [List.append_assoc, level.passed .curly Nat.one_pos, closingIndex_inert newline,
    closingIndex_at_closing, Option.map_some, Option.map_some, List.length_append]
  congr 1
  omega

/-- A header that is no class, or that declares nothing for what comes after it. -/
def Barren (text : List Char) (stop : Nat) (header : Header) : Prop :=
  header.keyword ≠ classKeyword ∨ (stop = text.length →
    ∀ dialect file, Declaration.entity? dialect text file header = .found none)

theorem Ignored.barren {header : Header} (ignored : Ignored text stop header) :
    Barren text stop header := by
  rcases ignored with other | ⟨after, harmless⟩
  · exact .inl other
  · exact .inr fun whole dialect file => (whole ▸ harmless).entity? dialect file

theorem entities_barren (file : Option RawText) {found : List Header}
    (barren : ∀ header ∈ found, Barren text text.length header) (rest : List Header) :
    entities dialect text file (found ++ rest) = entities dialect text file rest := by
  induction found with
  | nil => rfl
  | cons header found ih =>
      have later := ih fun other among => barren other (List.mem_cons_of_mem _ among)
      rw [List.cons_append, entities, later]
      split
      · rfl
      · rename_i keyword
        rcases barren header List.mem_cons_self with other | nothing
        · exact absurd (by simpa using other) keyword
        · rw [nothing rfl dialect file, Extraction.found_andThen]
          cases entities dialect text file rest with
          | mk warnings result => cases result <;> rfl

/-- Lines of a class body that close what they open, and in which a walk finds these members of a
class that is marked or not. -/
structure Presents (dialect : Dialect) (lines : List Char) (shown : Bool → List Callable) :
    Prop where
  level : Level lines
  walk : ∀ {text after extent pos}, Window text extent.stop pos (lines ++ after) →
    ∃ found next, Window text extent.stop next after ∧
      (∀ header ∈ found, Barren text extent.stop header) ∧
      (∀ marked, Exposes dialect text marked extent.stop found (shown marked)) ∧
      (Walk.start pos).headers dialect text extent =
        found ++ (Walk.start next).headers dialect text extent

section Presents

variable {lines more : List Char} {shown others : Bool → List Callable}

theorem presents_nil : Presents dialect [] fun _ => [] where
  level := level_nil
  walk window := ⟨[], _, window, by simp, fun _ => .nil, rfl⟩

theorem Presents.append (first : Presents dialect lines shown)
    (last : Presents dialect more others) :
    Presents dialect (lines ++ more) fun marked => shown marked ++ others marked where
  level := first.level.append last.level
  walk window := by
    rw [List.append_assoc] at window
    obtain ⟨found, middle, beyond, barren, exposes, walked⟩ := first.walk window
    obtain ⟨later, next, rest, barrenToo, exposesToo, walkedToo⟩ := last.walk beyond
    refine ⟨found ++ later, next, rest, List.forall_mem_append.mpr ⟨barren, barrenToo⟩,
      fun marked => (exposes marked).append (exposesToo marked), ?_⟩
    rw [walked, walkedToo, List.append_assoc]

theorem presents_flatMap {α : Type} {lines : α → List Char} {shown : α → Bool → List Callable}
    {items : List α} (presents : ∀ item ∈ items, Presents dialect (lines item) (shown item)) :
    Presents dialect (items.flatMap lines) fun marked => items.flatMap fun item =>
      shown item marked := by
  induction items with
  | nil => exact presents_nil
  | cons item items ih =>
      obtain ⟨own, others⟩ := List.forall_mem_cons.mp presents
      exact own.append (ih others)

theorem presents_members (regular : dialect.Regular) {members : List MemberText}
    (canonical : ∀ member ∈ members, member.Canonical dialect) (layout : Layout) :
    Presents dialect (members.flatMap (MemberText.spelling dialect layout)) fun marked =>
      members.filterMap (MemberText.callable? dialect marked) where
  level := level_members regular canonical layout
  walk window := by
    obtain ⟨found, next, beyond, ignored, exposes, walked⟩ :=
      Walk.headers_members regular canonical window
    exact ⟨found, next, beyond, fun header among => (ignored header among).barren, exposes, walked⟩

end Presents

/-! ## Classes -/

/-- A class that is written so that its lines present the members of another one. -/
structure ClassText.Reads (dialect : Dialect) (layout : Layout) (entry plain : ClassText) :
    Prop where
  name : IsName entry.name
  exposable : ∀ ending ∈ dialect.exemptEndings, ¬ ending.toList <:+ entry.name.toList
  sameName : plain.name = entry.name
  sameMark : plain.marked = entry.marked
  lines : Presents dialect (entry.members.flatMap (MemberText.spelling dialect layout))
    fun marked => plain.members.filterMap (MemberText.callable? dialect marked)

theorem ClassText.Legible.reads {entry : ClassText} (legible : entry.Legible dialect)
    (regular : dialect.Regular) (layout : Layout) : entry.Reads dialect layout entry :=
  ⟨legible.name, legible.exposable, rfl, rfl, presents_members regular legible.members layout⟩

def wholeText (text : List Char) : Extent := ⟨text.length, false⟩

/-- The header of a written class, from its keyword to the end of its name. -/
def ClassText.header (dialect : Dialect) (entry : ClassText) (start stop : Nat) : Header :=
  ⟨classKeyword, entry.name, if entry.marked then [dialect.classMarker] else [], [], start, stop⟩

section Class

variable {entry plain : ClassText} {layout : Layout}

theorem Walk.headers_markerLine (regular : dialect.Regular)
    (window : Window text extent.stop pos (entry.markerLine dialect ++ after)) :
    ∃ next, Window text extent.stop next after ∧
      (Walk.start pos).headers dialect text extent =
        Walk.headers dialect text extent
          ⟨next, if entry.marked then [dialect.classMarker] else [], [], false⟩ := by
  unfold ClassText.markerLine at window
  cases marked : entry.marked with
  | false =>
      rw [marked] at window
      exact ⟨pos, window, rfl⟩
  | true =>
      rw [marked] at window
      have first : Window text extent.stop pos
          ('@' :: (dialect.classMarker.toList ++ '\n' :: after)) := by
        simpa using window
      have beyond := first.of_append ('@' :: dialect.classMarker.toList)
      rw [List.length_cons, String.length_toList] at beyond
      refine ⟨_, beyond.tail, ?_⟩
      rw [Walk.start, Walk.headers_marker regular.classMarker (by decide) first,
        Walk.headers_blank (by decide) beyond]
      rfl

/-- A walk finds a written class, whatever its members are, and goes on in its body. -/
theorem Walk.headers_opening (regular : dialect.Regular) (named : IsName entry.name)
    (window : Window text (wholeText text).stop pos (entry.spelling dialect layout ++ after)) :
    ∃ start name,
      Window text (wholeText text).stop name
        (' ' :: '\x7b' :: (entry.body dialect layout ++ '\x7d' :: after)) ∧
      (Walk.start pos).headers dialect text (wholeText text) =
        entry.header dialect start name ::
          (Walk.start (name + 2)).headers dialect text (wholeText text) := by
  simp only [ClassText.spelling, List.append_assoc, List.cons_append, List.nil_append] at window
  obtain ⟨keyword, marked, line⟩ := Walk.headers_markerLine regular window
  have declared := Walk.headers_declaration regular.classStarts named.word named.free
    (endsWord_of_isBlank (by decide) _) marked
    (if entry.marked then [dialect.classMarker] else []) []
  have opened := (marked.of_append classKeyword.toList).tail.of_append entry.name.toList
  rw [String.length_toList, String.length_toList] at opened
  refine ⟨keyword, _, opened, ?_⟩
  rw [line, declared, Walk.start, Walk.headers_blank (by decide) opened,
    Walk.headers_brace (.inr ⟨rfl, rfl⟩) opened.tail]
  rfl

theorem Walk.headers_class (regular : dialect.Regular) (reads : entry.Reads dialect layout plain)
    (window : Window text (wholeText text).stop pos (entry.spelling dialect layout ++ after)) :
    ∃ start name next found,
      Window text (wholeText text).stop name
        (' ' :: '\x7b' :: (entry.body dialect layout ++ '\x7d' :: after)) ∧
      Window text (wholeText text).stop next after ∧
      (∀ header ∈ found, Barren text text.length header) ∧
      (Walk.start pos).headers dialect text (wholeText text) =
        entry.header dialect start name ::
          (found ++ (Walk.start next).headers dialect text (wholeText text)) := by
  obtain ⟨start, name, opened, walked⟩ := Walk.headers_opening regular reads.name window
  have body := opened.tail.tail
  rw [ClassText.body, List.append_assoc, List.singleton_append] at body
  obtain ⟨found, last, closing, barren, -, members⟩ := reads.lines.walk body
  refine ⟨start, name, last + 1 + 1, found, opened, closing.tail.tail, barren, ?_⟩
  rw [walked, members]
  congr 2
  rw [Walk.start, Walk.headers_blank (by decide) closing,
    Walk.headers_brace (.inl rfl) closing.tail]

theorem exposes_of_exposable {name : String}
    (exposable : ∀ ending ∈ dialect.exemptEndings, ¬ ending.toList <:+ name.toList) :
    dialect.exposes name [] = true := by
  have endings : (dialect.exemptEndings.any fun ending => ending.toList.isSuffixOf name.toList) =
      false := by
    rw [List.any_eq_false]
    intro ending among
    rw [List.isSuffixOf_iff_suffix]
    exact exposable ending among
  simp [Dialect.exposes, endings]

theorem contains_classMarker (entry : ClassText) (start stop : Nat) :
    (entry.header dialect start stop).markers.contains dialect.classMarker = entry.marked := by
  unfold ClassText.header
  cases entry.marked <;> simp

/-- A class is read up to the end of its body, wherever that is found. -/
theorem entity?_opened
    (exposable : ∀ ending ∈ dialect.exemptEndings, ¬ ending.toList <:+ entry.name.toList)
    (file : Option RawText) (start : Nat)
    (window : Window text (wholeText text).stop pos (' ' :: '\x7b' :: after)) :
    Declaration.entity? dialect text file (entry.header dialect start pos) =
      (bodyStop text file entry.name (pos + 2)).andThen fun stop =>
        (callables dialect text entry.name entry.marked stop []
          (headers dialect text (pos + 2) stop true)).map (entityWith dialect entry.name) := by
  have read : nextToken text pos text.length = some ⟨.symbol, "\x7b", pos + 1, pos + 2⟩ := by
    change nextToken text pos (wholeText text).stop = _
    rw [nextToken_blank (by decide) window,
      nextToken_single (by decide) (by decide) (by decide) window.tail]
  have opened : opening text pos = ⟨some (pos + 2), []⟩ := by
    rw [opening_of_some read]
    rfl
  have name : (entry.header dialect start pos).name = entry.name := rfl
  have stop : (entry.header dialect start pos).stop = pos := rfl
  unfold Declaration.entity?
  rw [name, stop, opened]
  simp only [exposes_of_exposable exposable, contains_classMarker, Bool.not_true,
    Bool.false_eq_true, ↓reduceIte]
  rfl

theorem bodyStop_of_closingIndex {rest : List Char} {n : Nat} (file : Option RawText)
    (className : String) (window : Window text (wholeText text).stop pos rest)
    (closed : closingIndex (some '\x7b') (some '\x7d') 1 rest = some n) :
    bodyStop text file className pos = .found (pos + n) := by
  have here : text.drop pos = rest := Window.drop_whole window
  simp [bodyStop, findClosing, here, closed]

theorem bodyStop_of_unclosed {rest : List Char} (file : Option RawText) (className : String)
    (window : Window text (wholeText text).stop pos rest)
    (unclosed : closingIndex (some '\x7b') (some '\x7d') 1 rest = none) :
    bodyStop text file className pos = ⟨[.unclosedBody file className], .ok text.length⟩ := by
  have here : text.drop pos = rest := Window.drop_whole window
  simp [bodyStop, findClosing, here, unclosed]

theorem ClassText.Reads.exposes (reads : entry.Reads dialect layout plain)
    (window : Window text stop pos (entry.body dialect layout)) :
    Exposes dialect text entry.marked stop (headers dialect text pos stop true)
      (plain.callables dialect) := by
  obtain ⟨found, next, ended, -, exposes, walked⟩ :=
    @Presents.walk _ _ _ reads.lines text ['\n'] ⟨stop, true⟩ pos window
  have blank : ∀ c ∈ ['\n'], isBlank c = true := List.forall_mem_singleton.mpr rfl
  have none : (Walk.start next).headers dialect text ⟨stop, true⟩ = [] :=
    Walk.headers_of_none (nextToken_of_ended blank ended)
  rw [headers, walked, none, List.append_nil, ClassText.callables, reads.sameMark]
  exact exposes entry.marked

/-- Of the members of a written class the first of each name is kept. -/
theorem entity?_header (reads : entry.Reads dialect layout plain) (file : Option RawText)
    (start : Nat)
    (window : Window text (wholeText text).stop pos
      (' ' :: '\x7b' :: (entry.body dialect layout ++ '\x7d' :: after))) :
    Declaration.entity? dialect text file (entry.header dialect start pos) =
      settled dialect plain.name (plain.callables dialect) := by
  have closed := bodyStop_of_closingIndex file entry.name window.tail.tail
    (closingIndex_lines reads.lines.level after)
  have body := Window.front window.tail.tail
  rw [entity?_opened reads.exposable file start window, closed, Extraction.found_andThen,
    reads.sameName]
  exact (reads.exposes body).settled entry.name

end Class

/-! ## Files -/

/-- A file is extracted to what its classes read as, one after the other. -/
theorem entities_written (regular : dialect.Regular) {layout : Layout} {α : Type}
    {entry plain : α → ClassText} {classes : List α}
    (reads : ∀ item ∈ classes, (entry item).Reads dialect layout (plain item))
    (file : Option RawText)
    (window : Window text (wholeText text).stop pos (written dialect layout (classes.map entry))) :
    entities dialect text file ((Walk.start pos).headers dialect text (wholeText text)) =
      settledAll dialect (classes.map plain) := by
  have lines (n : Nat) : ∀ c ∈ List.replicate n '\n', isBlank c = true :=
    List.forall_mem_replicate.mpr (.inr rfl)
  induction classes generalizing pos with
  | nil =>
      have read : nextToken text pos (wholeText text).stop = none :=
        nextToken_of_ended (lines layout.ending) window
      have none : (Walk.start pos).headers dialect text (wholeText text) = [] :=
        Walk.headers_of_none read
      rw [none]
      rfl
  | cons item rest ih =>
      obtain ⟨own, others⟩ := List.forall_mem_cons.mp reads
      obtain ⟨start, name, next, found, opened, beyond, barren, walked⟩ :=
        Walk.headers_class regular own window
      have entity := entity?_header own file start opened
      have later := ih others (beyond.of_append (List.replicate _ '\n'))
      have keyword : ((entry item).header dialect start name).keyword = classKeyword := rfl
      rw [Walk.start, ← Walk.headers_blanks (lines _) beyond] at later
      rw [walked, entities, keyword, entities_barren file barren, entity, Walk.start, later]
      simp only [bne_self_eq_false, Bool.false_eq_true, ↓reduceIte]
      rfl

/-- A written file declares its classes, each with the first member of each name, and the other
members are reported. -/
theorem extract_legible {dialect : Dialect} (known : dialect ∈ [Dialect.kotlin, Dialect.swift])
    (layout : Layout) {classes : List ClassText}
    (legible : ∀ entry ∈ classes, entry.Legible dialect) (file : Option RawText) :
    extract dialect (written dialect layout classes) file = settledAll dialect classes := by
  have regular := regular_of_known known
  have whole := @entities_written dialect (written dialect layout classes) 0 regular layout _ id id
    classes (fun entry among => (legible entry among).reads regular layout) file
    (by rw [List.map_id]; exact window_whole _)
  rwa [List.map_id] at whole

theorem settledAll_of_canonical {classes : List ClassText}
    (canonical : ∀ entry ∈ classes, entry.Canonical dialect) :
    settledAll dialect classes = .found (classes.filterMap (ClassText.entity? dialect)) := by
  induction classes with
  | nil => rfl
  | cons entry rest ih =>
      obtain ⟨own, others⟩ := List.forall_mem_cons.mp canonical
      rw [settledAll, own.settled, ih others, Extraction.found_andThen, Extraction.map_found]
      cases entity? : entry.entity? dialect <;> simp [entity?]

/-- A file that is written from descriptions in canonical form is extracted to the entities that
the rules of exposure prescribe, in order and without a report, whatever its layout. -/
theorem extract_written {dialect : Dialect} (known : dialect ∈ [Dialect.kotlin, Dialect.swift])
    (layout : Layout) {classes : List ClassText}
    (canonical : ∀ entry ∈ classes, entry.Canonical dialect) (file : Option RawText) :
    extract dialect (written dialect layout classes) file =
      .found (classes.filterMap (ClassText.entity? dialect)) := by
  rw [extract_legible known layout (fun entry member => (canonical entry member).legible) file]
  exact settledAll_of_canonical canonical

/-- A marked class with a call, a stream and an exempt member. -/
def player : ClassText where
  marked := true
  name := "Player"
  members := [
    ⟨[], ["open"], "tag", [⟨"labels", .dictionary (.name "String") (.list (.name "Int"))⟩],
      some (.function [.name "Int"] (.optional (.name "String")))⟩,
    ⟨[.member], ["private"], "watchWithSink",
      [⟨"id", .name "Int"⟩, ⟨"sink", .optional (.name "EventSink")⟩], none⟩,
    ⟨[.exemption], [], "stop", [⟨"after", .generic "Map" [.name "class", .name "func"]⟩], none⟩]

theorem player_canonical : player.Canonical .swift := by
  have word {name : String} (named : IsWord name.toList) : (TypeTree.name name).WellNamed :=
    .name named
  constructor
  · exact ⟨by decide, by decide⟩
  · decide
  · simp only [player, List.forall_mem_cons]
    refine ⟨⟨by decide, ⟨by decide, by decide⟩, ?_, ?_⟩,
      ⟨by decide, ⟨by decide, by decide⟩, ?_, ?_⟩, ⟨by decide, ⟨by decide, by decide⟩, ?_, ?_⟩,
      by simp⟩
    · simpa using ⟨by decide, .dictionary (word (by decide)) (.list (word (by decide)))⟩
    · simpa using .function (by simpa using word (by decide)) (.optional (word (by decide)))
    · simpa using ⟨⟨by decide, word (by decide)⟩, ⟨by decide, .optional (word (by decide))⟩⟩
    · simp
    · simpa using ⟨by decide, .generic (by decide)
        (by simpa using ⟨word (by decide), word (by decide)⟩)⟩
    · simp
  · decide

example :
    String.ofList ((player.members.head (by decide)).spelling .swift ⟨2, 0, 1, 1⟩) =
      "\n  open func tag(labels: [String: [Int]]) -> (Int) -> String? \x7b\x7d" := by
  rfl

theorem extract_player :
    Dialect.swift ∈ [Dialect.kotlin, Dialect.swift] ∧
      (∀ entry ∈ [player], entry.Canonical .swift) ∧
      extract .swift (written .swift ⟨2, 0, 1, 1⟩ [player]) none =
        .found [⟨"Player", [⟨.call, "tag", "(Int) -> String?", [⟨"labels", "[String: [Int]]"⟩]⟩,
          ⟨.subscription, "watch", "Void", [⟨"id", "Int"⟩]⟩], .ios⟩] := by
  have known : Dialect.swift ∈ [Dialect.kotlin, Dialect.swift] := by simp
  have canonical : ∀ entry ∈ [player], entry.Canonical .swift := by
    simpa using player_canonical
  refine ⟨known, canonical, ?_⟩
  rw [extract_written known ⟨2, 0, 1, 1⟩ canonical none]
  exact congrArg Extraction.found rfl

end DartBindings.Declaration

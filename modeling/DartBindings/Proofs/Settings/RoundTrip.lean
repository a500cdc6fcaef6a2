import DartBindings.Proofs.Markup.Writing
import DartBindings.Proofs.Settings.Usable

/-!
Settings that are written down are read again. A root element states them if it has their values in
attributes, the types and the removals in order, and each place in the last element that gives one;
what else is in the root, and where, does not matter.
-/

set_option autoImplicit false

namespace DartBindings

open Text Markup

/-- The value is that of the last of the elements, and the others have values too. -/
def StatesLast (name : String) (elements : List Element) (value : String) : Prop :=
  ∃ earlier : List String, (∀ other ∈ earlier, other ≠ "") ∧
    elements.map (·.get? name) = (earlier ++ [value]).map some

/-- The root element states the settings. -/
structure Settings.IsStatedBy (settings : Settings) (root : Element) : Prop where
  name : root.name = "bridge"
  channel : root.get? "channel" = some settings.channel
  eventBase : root.get? "event_prefix" = some settings.eventBase
  kotlin : StatesLast "path" (root.childrenNamed "kotlin") settings.kotlinDirectory
  swift : StatesLast "path" (root.childrenNamed "swift") settings.swiftDirectory
  output : StatesLast "file" (root.childrenNamed "output") settings.outputFile
  types : (root.childrenNamed "type").map
      (fun element => (element.get? "from", element.get? "to")) =
    settings.types.map fun (source, target) => (some source, some target)
  removals : (root.childrenNamed "remove").map
      (fun element => (element.get? "pattern", asksForPattern element)) =
    settings.removals.map fun removal => (some removal.text, removal.isPattern)

section Stated

variable {kind : SettingKind} {name default value : String} {element : Element}
  {elements : List Element} {root : Element} {settings : Settings}

theorem forall₂_of_map_eq {α β γ : Type} {f : α → γ} {g : β → γ} {R : α → β → Prop}
    {items : List α} {others : List β} (same : items.map f = others.map g)
    (each : ∀ other ∈ others, ∀ item, f item = g other → R item other) :
    List.Forall₂ R items others := by
  induction others generalizing items with
  | nil =>
      obtain rfl := List.map_eq_nil_iff.mp same
      exact .nil
  | cons other others ih =>
      obtain ⟨item, rest, rfl, here, later⟩ := List.map_eq_cons_iff.mp same
      obtain ⟨first, following⟩ := List.forall_mem_cons.mp each
      exact .cons (first item here) (ih later following)

theorem requiredValue_of_isSolid (given : element.get? name = some value)
    (solid : IsSolid value.toList) : requiredValue kind name element = .ok value :=
  requiredValue_eq_ok_iff.mpr ⟨value, ⟨given, by rintro rfl; exact solid.nonempty rfl⟩,
    (trimmed_of_isSolid solid).symm⟩

theorem StatesLast.lastValue (states : StatesLast name elements value)
    (solid : IsSolid value.toList) : lastValue kind name default elements = .ok value := by
  obtain ⟨earlier, some, values⟩ := states
  have nonempty : value ≠ "" := by
    rintro rfl
    exact solid.nonempty rfl
  refine lastValue_eq_ok_iff.mpr ⟨fun element member => ?_, ?_⟩
  · have given : element.get? name ∈ (earlier ++ [value]).map .some :=
      values ▸ List.mem_map_of_mem member
    obtain ⟨written, among, same⟩ := List.mem_map.mp given
    refine ⟨written, same.symm, ?_⟩
    rcases List.mem_append.mp among with other | last
    · exact some written other
    · exact List.mem_singleton.mp last ▸ nonempty
  · have last : lastGiven name elements = .some value := by
      have found : (elements.map (·.get? name)).getLast? = .some (.some value) := by
        rw [values]
        simp
      rw [List.getLast?_map, Option.map_eq_some_iff] at found
      obtain ⟨element, final, given⟩ := found
      rw [lastGiven, final, Option.bind_some, given]
    rw [last, Option.map_some, Option.getD_some, trimmed_of_isSolid solid]

theorem mem_texts_of_mem_types {text source target : String}
    (member : (source, target) ∈ settings.types) (side : text ∈ [source, target]) :
    text ∈ settings.texts :=
  List.mem_cons_of_mem _ (List.mem_append_left _ (List.mem_append_right _
    (List.mem_flatMap.mpr ⟨_, member, side⟩)))

theorem mem_texts_of_mem_removals {removal : Removal} (member : removal ∈ settings.removals) :
    removal.text ∈ settings.texts :=
  List.mem_cons_of_mem _ (List.mem_append_right _ (List.mem_map_of_mem member))

/-- Usable settings are read from a root element that states them. -/
theorem Settings.IsStatedBy.isReadFrom (stated : settings.IsStatedBy root)
    (usable : settings.IsUsable) (eventBase : trimmed settings.eventBase = settings.eventBase) :
    settings.IsReadFrom root where
  name := stated.name
  channel := by
    have solid := usable settings.channel List.mem_cons_self
    rw [channelSetting_eq_ok_iff, stated.channel, Option.map_some, Option.getD_some,
      trimmed_of_isSolid solid]
    refine ⟨rfl, fun none => ?_⟩
    rw [none] at solid
    exact solid.nonempty rfl
  eventBase := by rw [stated.eventBase, Option.map_some, Option.getD_some, eventBase]
  kotlin := stated.kotlin.lastValue (usable _ (by simp [Settings.texts]))
  swift := stated.swift.lastValue (usable _ (by simp [Settings.texts]))
  output := stated.output.lastValue (usable _ (by simp [Settings.texts]))
  types := forall₂_of_map_eq stated.types fun (source, target) member element given => by
    obtain ⟨first, second⟩ := Prod.mk.inj given
    exact typeSetting_eq_ok_iff.mpr
      ⟨requiredValue_of_isSolid first (usable _ (mem_texts_of_mem_types member (by simp))),
        requiredValue_of_isSolid second (usable _ (mem_texts_of_mem_types member (by simp)))⟩
  removals := forall₂_of_map_eq stated.removals fun removal member element given => by
    obtain ⟨text, isPattern⟩ := Prod.mk.inj given
    exact removalSetting_eq_ok_iff.mpr
      ⟨requiredValue_of_isSolid text (usable _ (mem_texts_of_mem_removals member)),
        isPattern.symm⟩

end Stated

/-! ## Writing -/

section Writing

variable {settings : Settings}

/-- The tags of the elements in the root. -/
def Settings.tags (settings : Settings) : List TagText :=
  [TagText.stating "kotlin" [("path", settings.kotlinDirectory)],
    .stating "swift" [("path", settings.swiftDirectory)],
    .stating "output" [("file", settings.outputFile)]] ++
  (settings.types.map fun (source, target) =>
    TagText.stating "type" [("from", source), ("to", target)]) ++
  settings.removals.map fun removal =>
    TagText.stating "remove" [("pattern", removal.text),
      ("regex", if removal.isPattern then "true" else "false")]

/-- A document that states the settings. -/
def Settings.written (settings : Settings) : DocumentText :=
  .ofTags (.stating "bridge" [("channel", settings.channel), ("event_prefix", settings.eventBase)])
    settings.tags

theorem Settings.isStatedBy_written (settings : Settings) :
    settings.IsStatedBy settings.written.root := by
  have root : settings.written.root =
      ⟨"bridge", [("channel", settings.channel), ("event_prefix", settings.eventBase)],
        [⟨"kotlin", [("path", settings.kotlinDirectory)], []⟩,
          ⟨"swift", [("path", settings.swiftDirectory)], []⟩,
          ⟨"output", [("file", settings.outputFile)], []⟩] ++
        (settings.types.map fun pair => ⟨"type", [("from", pair.1), ("to", pair.2)], []⟩) ++
        settings.removals.map fun removal =>
          ⟨"remove", [("pattern", removal.text),
            ("regex", if removal.isPattern then "true" else "false")], []⟩⟩ := by
    simp [Settings.written, Settings.tags, DocumentText.ofTags, Function.comp_def]
  rw [root]
  have single {name value : String} (tag : String) :
      StatesLast name [⟨tag, [(name, value)], []⟩] value :=
    ⟨[], by simp, by simp [Element.get?]⟩
  constructor
  · rfl
  · rfl
  · rfl
  · simpa [Element.childrenNamed, List.filter_map, Function.comp_def] using single "kotlin"
  · simpa [Element.childrenNamed, List.filter_map, Function.comp_def] using single "swift"
  · simpa [Element.childrenNamed, List.filter_map, Function.comp_def] using single "output"
  · have target (source target : String) :
        List.lookup "to" [("from", source), ("to", target)] = some target := rfl
    simp [Element.childrenNamed, List.filter_map, Function.comp_def, Element.get?, target]
  · have asks (removal : Removal) : asksForPattern ⟨"remove", [("pattern", removal.text),
        ("regex", if removal.isPattern then "true" else "false")], []⟩ = removal.isPattern := by
      cases removal with
      | named text => exact (by decide +kernel : ("false".toLower == "true") = false)
      | matching text => exact (by decide +kernel : ("true".toLower == "true") = true)
    simp [Element.childrenNamed, List.filter_map, Function.comp_def, Element.get?, asks]

/-- Every character of the settings is one of markup. -/
def Settings.IsLegal (settings : Settings) : Prop :=
  ∀ text ∈ settings.eventBase :: settings.texts, ∀ c ∈ text.toList, isMarkupChar c = true

theorem Settings.IsLegal.isWritten (legal : settings.IsLegal) :
    ∀ tag ∈ settings.tags, tag.IsWritten := by
  intro tag member
  simp only [Settings.tags, List.mem_append, List.mem_cons, List.not_mem_nil, or_false,
    List.mem_map] at member
  have chars {text : String} (inside : text ∈ settings.texts) :
      ∀ c ∈ text.toList, isMarkupChar c = true := legal text (List.mem_cons_of_mem _ inside)
  have single {name field value : String} (names : isPlainName name && isPlainName field)
      (inside : value ∈ settings.texts) : (TagText.stating name [(field, value)]).IsWritten := by
    rw [Bool.and_eq_true] at names
    refine TagText.isWritten_stating names.1 ?_ (by simp) ?_
    · simpa using names.2
    · simpa using chars inside
  rcases member with ((rfl | rfl | rfl) | ⟨⟨source, target⟩, among, rfl⟩) | ⟨removal, among, rfl⟩
  · exact single (by decide) (by simp [Settings.texts])
  · exact single (by decide) (by simp [Settings.texts])
  · exact single (by decide) (by simp [Settings.texts])
  · refine TagText.isWritten_stating (by decide) (by simp; decide) (by simp) ?_
    rw [List.forall_mem_cons, List.forall_mem_singleton]
    exact ⟨chars (mem_texts_of_mem_types among (by simp)),
      chars (mem_texts_of_mem_types among (by simp))⟩
  · refine TagText.isWritten_stating (by decide) (by simp; decide) (by simp) ?_
    rw [List.forall_mem_cons, List.forall_mem_singleton]
    refine ⟨chars (mem_texts_of_mem_removals among), List.all_eq_true.mp ?_⟩
    cases removal.isPattern <;> decide

theorem Settings.IsLegal.isWellFormed (legal : settings.IsLegal) :
    settings.written.IsWellFormed ∧ ∀ c ∈ settings.written.text, isWrittenChar c = true := by
  refine DocumentText.isWellFormed_ofTags ?_ legal.isWritten
  refine TagText.isWritten_stating (by decide) (by simp; decide) (by simp) ?_
  rw [List.forall_mem_cons, List.forall_mem_singleton]
  exact ⟨legal _ (by simp [Settings.texts]), legal _ List.mem_cons_self⟩

end Writing

/-- Usable settings are read from every file whose root element states them, in particular from
every text of the grammar, whatever its line breaks; and there is one if they can be written. -/
theorem ofBytes_of_isStatedBy {settings : Settings} (usable : settings.IsUsable)
    (eventBase : trimmed settings.eventBase = settings.eventBase) :
    (∀ bytes root, document bytes = .ok root → settings.IsStatedBy root →
      Settings.ofBytes bytes = .ok settings) ∧
    (∀ (written : DocumentText) (file : String), written.IsWellFormed →
      settings.IsStatedBy written.root → unifyLineBreaks file.toList = written.text →
      Settings.ofBytes (encodeUtf8 file) = .ok settings) ∧
    (settings.IsLegal → ∃ (written : DocumentText) (file : String), written.IsWellFormed ∧
      settings.IsStatedBy written.root ∧ unifyLineBreaks file.toList = written.text) := by
  have read (bytes : List UInt8) (root : Element) (found : document bytes = .ok root)
      (stated : settings.IsStatedBy root) : Settings.ofBytes bytes = .ok settings :=
    Settings.ofBytes_eq_ok_iff.mpr ⟨root, found, stated.isReadFrom usable eventBase⟩
  refine ⟨read, ?_, ?_⟩
  · intro written file wellFormed stated same
    exact read _ _ (wellFormed.document same) stated
  · intro legal
    obtain ⟨wellFormed, chars⟩ := legal.isWellFormed
    refine ⟨settings.written, String.ofList settings.written.text, wellFormed,
      settings.isStatedBy_written, ?_⟩
    rw [String.toList_ofList, unifyLineBreaks_eq_self]
    intro member
    exact absurd (chars _ member) (by decide)

/-- The elements may come in any order, with other ones and comments between them. -/
theorem ofBytes_of_isStatedBy_interleaved :
    let settings : Settings := ⟨"k", "s", "o", "c", "", [("U", "S")], [.matching "&"]⟩
    Settings.ofBytes (encodeUtf8 ("<bridge channel='c' event_prefix=''><type from='U' to='S'/>" ++
      "<kotlin path='x'/><z/><remove regex='True' pattern='&amp;'/><swift path='s'/><!-- -->" ++
      "<output file='o'/><kotlin path='k'/></bridge>")) = .ok settings ∧
    ∃ (written : DocumentText) (file : String), written.IsWellFormed ∧
      unifyLineBreaks file.toList = written.text ∧
      Settings.ofBytes (encodeUtf8 file) = .ok settings := by
  intro settings
  have usable : settings.IsUsable := by
    have solid : settings.texts.all isUnbroken = true := by decide +kernel
    exact fun text member => isSolid_of_isUnbroken (List.all_eq_true.mp solid text member)
  obtain ⟨any, grammar, exists_written⟩ := ofBytes_of_isStatedBy usable (by decide)
  constructor
  · generalize file : encodeUtf8 _ = bytes
    have stated : (document bytes).toOption.any (fun root =>
        root.name == "bridge" && root.get? "channel" == some "c" &&
          root.get? "event_prefix" == some "" &&
          (root.childrenNamed "kotlin").map (·.get? "path") == [some "x", some "k"] &&
          (root.childrenNamed "swift").map (·.get? "path") == [some "s"] &&
          (root.childrenNamed "output").map (·.get? "file") == [some "o"] &&
          (root.childrenNamed "type").map
            (fun element => (element.get? "from", element.get? "to")) == [(some "U", some "S")] &&
          (root.childrenNamed "remove").map
            (fun element => (element.get? "pattern", asksForPattern element)) ==
            [(some "&", true)]) = true := by
      rw [← file]
      decide +kernel
    obtain ⟨root, found, same⟩ := (Option.any_eq_true _ _).mp stated
    simp only [Bool.and_eq_true, beq_iff_eq] at same
    obtain ⟨⟨⟨⟨⟨⟨⟨name, channel⟩, eventBase⟩, kotlin⟩, swift⟩, output⟩, types⟩, removals⟩ := same
    exact any bytes root (ok_of_toOption found) ⟨name, channel, eventBase, ⟨["x"], by simp, kotlin⟩,
      ⟨[], by simp, swift⟩, ⟨[], by simp, output⟩, types, removals⟩
  · have legal : settings.IsLegal := by
      have chars : (settings.eventBase :: settings.texts).all
          (fun text => text.toList.all isMarkupChar) = true := by decide +kernel
      exact fun text member => List.all_eq_true.mp (List.all_eq_true.mp chars text member)
    obtain ⟨written, file, wellFormed, stated, same⟩ := exists_written legal
    exact ⟨written, file, wellFormed, same, grammar written file wellFormed stated same⟩

end DartBindings

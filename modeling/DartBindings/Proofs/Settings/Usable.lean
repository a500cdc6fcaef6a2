import DartBindings.Proofs.Settings.Reading
import DartBindings.Proofs.Text.Strip

/-!
Which accepted settings can be used. An attribute is asked for a value that is not empty before the
blanks around the value are taken off, so what is read of a blank value is empty. Only the channel
is looked at afterwards.
-/

set_option autoImplicit false

namespace DartBindings

open Text Markup

/-- The settings that may not be blank: all but the base of the event channels. -/
def Settings.texts (settings : Settings) : List String :=
  settings.channel ::
    ([settings.kotlinDirectory, settings.swiftDirectory, settings.outputFile] ++
      (settings.types.flatMap fun (source, target) => [source, target]) ++
      settings.removals.map Removal.text)

/-- None of these settings is blank or has blanks around it. -/
def Settings.IsUsable (settings : Settings) : Prop :=
  ∀ text ∈ settings.texts, IsSolid text.toList

/-- The values that count, apart from the channel: of the places those of the last element, of the
types and removals those of each element. -/
def countedValues (root : Element) : List String :=
  (lastGiven "path" (root.childrenNamed "kotlin")).toList ++
    (lastGiven "path" (root.childrenNamed "swift")).toList ++
    (lastGiven "file" (root.childrenNamed "output")).toList ++
    ((root.childrenNamed "type").flatMap fun element =>
      (element.get? "from").toList ++ (element.get? "to").toList) ++
    (root.childrenNamed "remove").flatMap fun element => (element.get? "pattern").toList

section Texts

variable {root : Element} {settings : Settings} {text written : String}

theorem isSolid_trimmed_iff :
    IsSolid (trimmed written).toList ↔ ∃ c ∈ written.toList, isBlank c = false := by
  rw [trimmed, String.toList_ofList, isSolid_strip_iff]

theorem trimmed_trimmed (written : String) : trimmed (trimmed written) = trimmed written := by
  rw [trimmed, trimmed, String.toList_ofList, strip_strip]

theorem trimmed_of_isSolid (solid : IsSolid text.toList) : trimmed text = text := by
  rw [trimmed, strip_of_isSolid solid, String.ofList_toList]

theorem isSolid_trimmed (some : trimmed written ≠ "") : IsSolid (trimmed written).toList := by
  rw [trimmed, String.toList_ofList]
  refine isSolid_strip fun none => some ?_
  rw [trimmed, none]

/-- Texts without blanks. -/
def isUnbroken (text : String) : Bool :=
  !text.toList.isEmpty && text.toList.all fun c => !isBlank c

theorem isSolid_of_isUnbroken (unbroken : isUnbroken text = true) : IsSolid text.toList := by
  simp only [isUnbroken, Bool.and_eq_true, Bool.not_eq_true', List.isEmpty_eq_false_iff,
    List.all_eq_true] at unbroken
  exact isSolid_of_forall unbroken.1 unbroken.2

theorem isUsable_default : Settings.default.IsUsable := by
  have solid : Settings.default.texts.all isUnbroken = true := by decide +kernel
  exact fun text member => isSolid_of_isUnbroken (List.all_eq_true.mp solid text member)

theorem exists_of_mem_right {α β : Type} {R : α → β → Prop} {items : List α} {others : List β}
    (each : List.Forall₂ R items others) {other : β} (member : other ∈ others) :
    ∃ item ∈ items, R item other := by
  induction each with
  | nil => cases member
  | cons here _ ih =>
      rcases List.mem_cons.mp member with rfl | later
      · exact ⟨_, List.mem_cons_self, here⟩
      · obtain ⟨item, inside, related⟩ := ih later
        exact ⟨item, List.mem_cons_of_mem _ inside, related⟩

/-- The place that elements state is the last one they give, or else the default. -/
theorem place_cases {kind : SettingKind} {name default value : String} {elements : List Element}
    (read : lastValue kind name default elements = .ok value) :
    lastGiven name elements = none ∧ value = default ∨
      ∃ written, lastGiven name elements = some written ∧ value = trimmed written := by
  obtain ⟨-, rfl⟩ := lastValue_eq_ok_iff.mp read
  cases lastGiven name elements with
  | none => exact .inl ⟨rfl, rfl⟩
  | some written => exact .inr ⟨written, rfl, rfl⟩

theorem Settings.IsReadFrom.channel_solid (read : settings.IsReadFrom root) :
    IsSolid settings.channel.toList := by
  obtain ⟨channel, some⟩ := channelSetting_eq_ok_iff.mp read.channel
  rw [channel] at some ⊢
  cases given : root.get? "channel" with
  | none => exact isUsable_default _ List.mem_cons_self
  | some written =>
      rw [given] at some
      exact isSolid_trimmed some

/-- Where a setting comes from. -/
theorem Settings.IsReadFrom.of_mem_texts (read : settings.IsReadFrom root)
    (member : text ∈ settings.texts) :
    IsSolid text.toList ∨ ∃ written ∈ countedValues root, text = trimmed written := by
  simp only [Settings.texts, List.mem_cons, List.mem_append, List.mem_flatMap, List.mem_map,
    List.not_mem_nil, or_false] at member
  simp only [countedValues, List.mem_append, List.mem_flatMap, Option.mem_toList]
  have default {text : String} (member : text ∈ Settings.default.texts) :
      IsSolid text.toList := isUsable_default text member
  rcases member with rfl | ((rfl | rfl | rfl) | ⟨pair, among, side⟩) | ⟨removal, among, rfl⟩
  · exact .inl read.channel_solid
  · rcases place_cases read.kotlin with ⟨-, value⟩ | ⟨written, given, value⟩
    · exact .inl (value ▸ default (by decide))
    · exact .inr ⟨written, .inl (.inl (.inl (.inl given))), value⟩
  · rcases place_cases read.swift with ⟨-, value⟩ | ⟨written, given, value⟩
    · exact .inl (value ▸ default (by decide))
    · exact .inr ⟨written, .inl (.inl (.inl (.inr given))), value⟩
  · rcases place_cases read.output with ⟨-, value⟩ | ⟨written, given, value⟩
    · exact .inl (value ▸ default (by decide))
    · exact .inr ⟨written, .inl (.inl (.inr given)), value⟩
  · obtain ⟨element, inside, stated⟩ := exists_of_mem_right read.types among
    obtain ⟨source, target⟩ := typeSetting_eq_ok_iff.mp stated
    rcases side with rfl | rfl
    · obtain ⟨written, gives, value⟩ := requiredValue_eq_ok_iff.mp source
      exact .inr ⟨written, .inl (.inr ⟨element, inside, .inl gives.1⟩), value⟩
    · obtain ⟨written, gives, value⟩ := requiredValue_eq_ok_iff.mp target
      exact .inr ⟨written, .inl (.inr ⟨element, inside, .inr gives.1⟩), value⟩
  · obtain ⟨element, inside, stated⟩ := exists_of_mem_right read.removals among
    obtain ⟨written, gives, value⟩ :=
      requiredValue_eq_ok_iff.mp (removalSetting_eq_ok_iff.mp stated).1
    exact .inr ⟨written, .inr ⟨element, inside, gives.1⟩, value⟩

/-- Every value that counts becomes a setting, without the blanks around it. -/
theorem Settings.IsReadFrom.mem_texts (read : settings.IsReadFrom root)
    (member : written ∈ countedValues root) : trimmed written ∈ settings.texts := by
  have place {kind : SettingKind} {name default value : String} {elements : List Element}
      (read : lastValue kind name default elements = .ok value)
      (given : lastGiven name elements = some written) : trimmed written = value := by
    obtain ⟨-, rfl⟩ := lastValue_eq_ok_iff.mp read
    rw [given]
    rfl
  have value {kind : SettingKind} {name value : String} {element : Element}
      (read : requiredValue kind name element = .ok value)
      (given : element.get? name = some written) : trimmed written = value := by
    obtain ⟨other, gives, rfl⟩ := requiredValue_eq_ok_iff.mp read
    rw [Option.some.inj (given.symm.trans gives.1)]
  simp only [countedValues, List.mem_append, List.mem_flatMap, Option.mem_toList] at member
  simp only [Settings.texts, List.mem_cons, List.mem_append, List.mem_flatMap, List.mem_map,
    List.not_mem_nil, or_false]
  rcases member with (((given | given) | given) | ⟨element, inside, given⟩) |
    ⟨element, inside, given⟩
  · exact .inr (.inl (.inl (.inl (place read.kotlin given))))
  · exact .inr (.inl (.inl (.inr (.inl (place read.swift given)))))
  · exact .inr (.inl (.inl (.inr (.inr (place read.output given)))))
  · obtain ⟨pair, among, stated⟩ := exists_of_mem_right read.types.flip inside
    obtain ⟨source, target⟩ := typeSetting_eq_ok_iff.mp stated
    refine .inr (.inl (.inr ⟨pair, among, ?_⟩))
    rcases given with given | given
    · exact .inl (value source given)
    · exact .inr (value target given)
  · obtain ⟨removal, among, stated⟩ := exists_of_mem_right read.removals.flip inside
    exact .inr (.inr ⟨removal, among, (value (removalSetting_eq_ok_iff.mp stated).1 given).symm⟩)

end Texts

/-- The channel of accepted settings is never blank, and none of the settings has blanks around it.
They can all be used exactly if no value that counts is blank. -/
theorem isUsable_iff {bytes : List UInt8} {settings : Settings}
    (accepted : Settings.ofBytes bytes = .ok settings) :
    IsSolid settings.channel.toList ∧ (∀ text ∈ settings.texts, trimmed text = text) ∧
      ∃ root, document bytes = .ok root ∧
        (settings.IsUsable ↔
          ∀ written ∈ countedValues root, ∃ c ∈ written.toList, isBlank c = false) := by
  obtain ⟨root, found, read⟩ := Settings.ofBytes_eq_ok_iff.mp accepted
  refine ⟨read.channel_solid, fun text member => ?_, root, found, ?_, ?_⟩
  · rcases read.of_mem_texts member with solid | ⟨written, -, rfl⟩
    · exact trimmed_of_isSolid solid
    · exact trimmed_trimmed written
  · intro usable written member
    exact isSolid_trimmed_iff.mp (usable _ (read.mem_texts member))
  · intro solid text member
    rcases read.of_mem_texts member with usable | ⟨written, counted, rfl⟩
    · exact usable
    · exact isSolid_trimmed_iff.mpr (solid written counted)

/-- The blanks around a path and a pattern are taken off, and a blank path before another one does
not count. -/
theorem isUsable_spaced :
    let bytes := encodeUtf8
      "<bridge><kotlin path=' '/><kotlin path=' kt '/><remove pattern='A\t'/></bridge>"
    let settings : Settings :=
      { Settings.default with kotlinDirectory := "kt", removals := [.named "A"] }
    Settings.ofBytes bytes = .ok settings ∧ settings.IsUsable := by
  intro bytes settings
  have accepted : Settings.ofBytes bytes = .ok settings := ok_of_toOption (by decide +kernel)
  refine ⟨accepted, ?_⟩
  obtain ⟨-, -, root, found, usable⟩ := isUsable_iff accepted
  have counted : countedValues root = [" kt ", "A "] := by
    have values : (document bytes).toOption.map countedValues = some [" kt ", "A "] := by
      decide +kernel
    rw [found] at values
    exact Option.some.inj values
  have words : [" kt ", "A "].all (fun text => text.toList.any fun c => !isBlank c) = true := by
    decide
  rw [usable, counted]
  intro written member
  simpa using List.all_eq_true.mp words written member

/-- A blank path is accepted, and what is read of it is empty. -/
theorem exists_not_isUsable :
    ∃ settings, Settings.ofBytes (encodeUtf8 "<bridge><kotlin path=' '/></bridge>") = .ok settings ∧
      settings.kotlinDirectory = "" ∧ ¬ settings.IsUsable := by
  refine ⟨{ Settings.default with kotlinDirectory := "" }, ok_of_toOption (by decide +kernel), rfl,
    fun usable => ?_⟩
  exact (usable "" (by decide)).nonempty rfl

end DartBindings

import DartBindings.Proofs.Results
import DartBindings.Settings

/-!
When a root element is read as settings, and what each of them is then. The conditions do not depend
on each other, so each setting can be looked at alone.
-/

set_option autoImplicit false

namespace DartBindings

open Text Markup

/-- The text of a removal, be it a name or a pattern. -/
def Removal.text : Removal → String
  | .named text | .matching text => text

def Removal.isPattern : Removal → Bool
  | .named _ => false
  | .matching _ => true

/-- An element with this attribute, its value not empty. -/
def Gives (name : String) (element : Element) (written : String) : Prop :=
  element.get? name = some written ∧ written ≠ ""

/-- The value that the last of the elements has for an attribute. -/
def lastGiven (name : String) (elements : List Element) : Option String :=
  elements.getLast?.bind (·.get? name)

/-- The element asks for its removal to be read as a pattern. -/
def asksForPattern (element : Element) : Bool :=
  ((element.get? "regex").getD "false").toLower == "true"

section Parts

variable {kind : SettingKind} {name default value : String} {element : Element}
  {elements : List Element}

theorem requiredValue_eq_ok_iff :
    requiredValue kind name element = .ok value ↔
      ∃ written, Gives name element written ∧ value = trimmed written := by
  unfold requiredValue Gives
  cases element.get? name with
  | none => simp
  | some written =>
      by_cases empty : written = ""
      · simp [empty]
      · simp only [String.isEmpty_iff, empty, ↓reduceIte, Except.ok.injEq, Option.some.injEq]
        constructor
        · rintro rfl
          exact ⟨written, ⟨rfl, empty⟩, rfl⟩
        · rintro ⟨-, ⟨rfl, -⟩, rfl⟩
          rfl

theorem lastValue_cons (element : Element) (elements : List Element) :
    lastValue kind name default (element :: elements) =
      (requiredValue kind name element).bind fun value =>
        lastValue kind name value elements := by
  unfold lastValue
  rw [List.mapM_cons]
  cases requiredValue kind name element with
  | error cause => rfl
  | ok value =>
      change ((elements.mapM (requiredValue kind name)).bind fun later =>
        .ok (value :: later)).map _ = (elements.mapM (requiredValue kind name)).map _
      cases elements.mapM (requiredValue kind name) with
      | error cause => rfl
      | ok values => simp [Except.bind, Except.map, List.getLast?_cons]

theorem exists_lastGiven (some : elements ≠ [])
    (given : ∀ element ∈ elements, ∃ written, Gives name element written) :
    ∃ written, lastGiven name elements = .some written := by
  obtain ⟨written, gives, -⟩ := given _ (List.getLast_mem some)
  refine ⟨written, ?_⟩
  rw [lastGiven, List.getLast?_eq_getLast_of_ne_nil some, Option.bind_some, gives]

/-- Each of the elements has to give a value, and that of the last one counts. -/
theorem lastValue_eq_ok_iff :
    lastValue kind name default elements = .ok value ↔
      (∀ element ∈ elements, ∃ written, Gives name element written) ∧
        value = ((lastGiven name elements).map trimmed).getD default := by
  induction elements generalizing default with
  | nil =>
      change Except.ok default = _ ↔ _
      simp [lastGiven, eq_comm]
  | cons element elements ih =>
      have last {written : String} (gives : Gives name element written)
          (later : ∀ element ∈ elements, ∃ written, Gives name element written) :
          ((lastGiven name (element :: elements)).map trimmed).getD default =
            ((lastGiven name elements).map trimmed).getD (trimmed written) := by
        cases elements with
        | nil => simp [lastGiven, gives.1]
        | cons next rest =>
            obtain ⟨final, found⟩ := exists_lastGiven (List.cons_ne_nil next rest) later
            have same : lastGiven name (element :: next :: rest) = some final := by
              rw [← found, lastGiven, lastGiven, List.getLast?_cons_cons]
            rw [same, found]
            rfl
      rw [lastValue_cons, bind_eq_ok_iff]
      simp only [requiredValue_eq_ok_iff, ih, List.forall_mem_cons]
      constructor
      · rintro ⟨-, ⟨written, gives, rfl⟩, later, rfl⟩
        exact ⟨⟨⟨written, gives⟩, later⟩, (last gives later).symm⟩
      · rintro ⟨⟨⟨written, gives⟩, later⟩, rfl⟩
        exact ⟨_, ⟨written, gives, rfl⟩, later, last gives later⟩

theorem typeSetting_eq_ok_iff {pair : String × String} :
    typeSetting element = .ok pair ↔
      requiredValue .type "from" element = .ok pair.1 ∧
        requiredValue .type "to" element = .ok pair.2 := by
  obtain ⟨source, target⟩ := pair
  change ((requiredValue .type "from" element).bind fun first =>
    (requiredValue .type "to" element).bind fun second => .ok (first, second)) = _ ↔ _
  simp only [bind_eq_ok_iff, Except.ok.injEq, Prod.mk.injEq]
  constructor
  · rintro ⟨_, first, _, second, rfl, rfl⟩
    exact ⟨first, second⟩
  · rintro ⟨first, second⟩
    exact ⟨source, first, target, second, rfl, rfl⟩

theorem removalSetting_eq_ok_iff {removal : Removal} :
    removalSetting element = .ok removal ↔
      requiredValue .removal "pattern" element = .ok removal.text ∧
        removal.isPattern = asksForPattern element := by
  change ((requiredValue .removal "pattern" element).bind fun text =>
    .ok (if asksForPattern element then Removal.matching text else .named text)) = _ ↔ _
  rw [bind_eq_ok_iff]
  simp only [Except.ok.injEq]
  cases asksForPattern element with
  | true => cases removal <;> simp [Removal.text, Removal.isPattern]
  | false => cases removal <;> simp [Removal.text, Removal.isPattern]

theorem channelSetting_eq_ok_iff {root : Element} {channel : String} :
    channelSetting root = .ok channel ↔
      channel = ((root.get? "channel").map trimmed).getD Settings.default.channel ∧
        channel ≠ "" := by
  unfold channelSetting
  cases root.get? "channel" with
  | none =>
      simp only [Except.ok.injEq, Option.map_none, Option.getD_none]
      constructor
      · rintro rfl
        exact ⟨rfl, by decide⟩
      · rintro ⟨rfl, -⟩
        rfl
  | some written =>
      by_cases empty : trimmed written = ""
      · simp [empty]
      · simp only [String.isEmpty_iff, empty, ↓reduceIte, Except.ok.injEq, Option.map_some,
          Option.getD_some]
        constructor
        · rintro rfl
          exact ⟨rfl, empty⟩
        · rintro ⟨rfl, -⟩
          rfl

end Parts

/-- What a root element has to be so that these settings are read from it. -/
structure Settings.IsReadFrom (settings : Settings) (root : Element) : Prop where
  name : root.name = "bridge"
  channel : channelSetting root = .ok settings.channel
  eventBase : settings.eventBase =
    ((root.get? "event_prefix").map trimmed).getD Settings.default.eventBase
  kotlin : lastValue .kotlin "path" Settings.default.kotlinDirectory (root.childrenNamed "kotlin") =
    .ok settings.kotlinDirectory
  swift : lastValue .swift "path" Settings.default.swiftDirectory (root.childrenNamed "swift") =
    .ok settings.swiftDirectory
  output : lastValue .output "file" Settings.default.outputFile (root.childrenNamed "output") =
    .ok settings.outputFile
  types : List.Forall₂ (fun element pair => typeSetting element = .ok pair)
    (root.childrenNamed "type") settings.types
  removals : List.Forall₂ (fun element removal => removalSetting element = .ok removal)
    (root.childrenNamed "remove") settings.removals

theorem Settings.ofElement_eq_ok_iff {root : Element} {settings : Settings} :
    Settings.ofElement root = .ok settings ↔ settings.IsReadFrom root := by
  by_cases named : root.name = "bridge"
  · have opened : Settings.ofElement root =
        (channelSetting root).bind fun channel =>
        (lastValue .kotlin "path" Settings.default.kotlinDirectory
          (root.childrenNamed "kotlin")).bind fun kotlinDirectory =>
        (lastValue .swift "path" Settings.default.swiftDirectory
          (root.childrenNamed "swift")).bind fun swiftDirectory =>
        (lastValue .output "file" Settings.default.outputFile
          (root.childrenNamed "output")).bind fun outputFile =>
        ((root.childrenNamed "type").mapM typeSetting).bind fun types =>
        ((root.childrenNamed "remove").mapM removalSetting).bind fun removals =>
        .ok ⟨kotlinDirectory, swiftDirectory, outputFile, channel,
          ((root.get? "event_prefix").map trimmed).getD Settings.default.eventBase, types,
          removals⟩ := by
      unfold Settings.ofElement
      rw [named]
      rfl
    rw [opened]
    simp only [bind_eq_ok_iff, mapM_eq_ok_iff, Except.ok.injEq]
    constructor
    · rintro ⟨_, channel, _, kotlin, _, swift, _, output, _, types, _, removals, rfl⟩
      exact ⟨named, channel, rfl, kotlin, swift, output, types, removals⟩
    · rintro ⟨-, channel, eventBase, kotlin, swift, output, types, removals⟩
      exact ⟨_, channel, _, kotlin, _, swift, _, output, _, types, _, removals, by rw [← eventBase]⟩
  · have refused : Settings.ofElement root = .error (.wrongRoot root.name) := by
      unfold Settings.ofElement
      rw [if_pos (by simpa using named)]
      rfl
    rw [refused]
    exact ⟨nofun, fun read => absurd read.name named⟩

theorem Settings.ofBytes_eq_ok_iff {bytes : List UInt8} {settings : Settings} :
    Settings.ofBytes bytes = .ok settings ↔
      ∃ root, document bytes = .ok root ∧ settings.IsReadFrom root := by
  unfold Settings.ofBytes
  cases document bytes with
  | error error => simp
  | ok root => simp [Settings.ofElement_eq_ok_iff]

end DartBindings

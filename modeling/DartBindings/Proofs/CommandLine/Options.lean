import DartBindings.CommandLine.Options
import DartBindings.Proofs.Text.Raw

/-!
Where the values of options come from: each is the end of an argument, or it stands for two dashes.
So arguments without stray bytes make options without them.
-/

set_option autoImplicit false

namespace DartBindings.CommandLine

open Text

/-! ## One argument -/

/-- The text that is joined to an option, empty if there is none. -/
def Shape.joined : Shape → RawText
  | .option _ _ joined => joined.getD []
  | .plain | .unknownOption | .separator => []

section Argument

variable {text value : RawText} {flag : Flag}

theorem cutEquals_suffix (cut : (cutEquals text).2 = some value) : value <:+ text := by
  unfold cutEquals at cut
  dsimp only at cut
  split at cut
  · cases cut
  · rename_i equals rest found
    cases cut
    exact (List.suffix_cons equals value).trans (found ▸ List.drop_suffix _ _)

theorem candidates_suffix {spelling : String}
    (member : (spelling, flag, some value) ∈ candidates text) : value <:+ text := by
  unfold candidates at member
  split at member
  · obtain ⟨entry, -, same⟩ := List.mem_map.mp member
    exact cutEquals_suffix (congrArg (·.2.2) same)
  · rename_i letter rest _
    obtain ⟨entry, -, same⟩ := List.mem_map.mp member
    obtain rfl : rest = value := Option.some.inj (congrArg (·.2.2) same)
    exact List.suffix_append [.char '-', letter] rest
  · cases member

theorem shape_joined {found : Shape} (classified : shape text = .ok found) :
    found.joined <:+ text := by
  unfold shape at classified
  split at classified
  · cases classified
    exact List.nil_suffix
  · split at classified
    · cases classified
      exact List.nil_suffix
    · split at classified
      · cases classified
        exact List.nil_suffix
      · dsimp only at classified
        split at classified
        · rename_i flag value stated
          cases classified
          obtain ⟨value, cut, known⟩ := Option.bind_eq_some_iff.mp stated
          obtain ⟨flag, -, same⟩ := Option.map_eq_some_iff.mp known
          cases same
          exact cutEquals_suffix cut
        · split at classified
          · rename_i spelling flag joined only
            cases classified
            cases joined with
            | none => exact List.nil_suffix
            | some value =>
                exact candidates_suffix (only ▸ List.mem_singleton_self _)
          · split at classified <;> cases classified <;> exact List.nil_suffix
          · cases classified

end Argument

/-! ## All arguments -/

theorem shapes_joined {arguments : List RawText} {found : List (RawText × Shape)}
    (classified : shapes arguments = .ok found) :
    ∀ entry ∈ found, entry.1 ∈ arguments ∧ entry.2.joined <:+ entry.1 := by
  induction arguments generalizing found with
  | nil =>
      cases classified
      exact nofun
  | cons argument rest ih =>
      rw [shapes] at classified
      split at classified
      · cases classified
        rw [List.forall_mem_cons]
        refine ⟨⟨List.mem_cons_self, List.nil_suffix⟩, fun entry member => ?_⟩
        obtain ⟨later, inside, rfl⟩ := List.mem_map.mp member
        exact ⟨List.mem_cons_of_mem _ inside, List.nil_suffix⟩
      · cases first : shape argument with
        | error error =>
            rw [first] at classified
            cases classified
        | ok form =>
            cases others : shapes rest with
            | error error =>
                rw [first, others] at classified
                cases classified
            | ok forms =>
                rw [first, others] at classified
                cases classified
                rw [List.forall_mem_cons]
                exact ⟨⟨List.mem_cons_self, shape_joined first⟩, fun entry member =>
                  (ih others entry member).imp_left (List.mem_cons_of_mem _)⟩

/-! ## Options -/

/-- What options state for each purpose that has a value. -/
def Options.values (options : Options) : List (Option RawText) :=
  [options.config, options.projectRoot, options.kotlin, options.swift, options.output,
    options.channel, options.eventBase]

/-- The options state this value for something. -/
def Options.States (options : Options) (value : RawText) : Prop :=
  some value ∈ options.values

section Options

variable {options after : Options} {value text : RawText}

theorem Options.mem_values_set {purpose : Purpose} :
    ∀ entry ∈ (options.set purpose text).values,
      entry ∈ options.values ∨ entry = some (valueText purpose text) := by
  unfold Options.values
  cases purpose <;> simp [Options.set]

theorem Options.states_set {purpose : Purpose} (states : (options.set purpose text).States value) :
    options.States value ∨ value = valueText purpose text :=
  (Options.mem_values_set _ states).imp_right Option.some.inj

theorem Options.states_setAll {entries : List (Purpose × RawText)}
    (set : options.setAll entries = .run after) (states : after.States value) :
    options.States value ∨ ∃ entry ∈ entries, value = valueText entry.1 entry.2 := by
  induction entries generalizing options with
  | nil =>
      cases set
      exact .inl states
  | cons entry rest ih =>
      obtain ⟨purpose, text⟩ := entry
      rw [Options.setAll] at set
      split at set
      · cases set
      · rcases ih set with before | ⟨entry, member, same⟩
        · rcases Options.states_set before with earlier | same
          · exact .inl earlier
          · exact .inr ⟨_, List.mem_cons_self, same⟩
        · exact .inr ⟨entry, List.mem_cons_of_mem _ member, same⟩

/-- Each option of one argument has the end of what is joined to the first one as its value. -/
theorem letterGroup_complete {flag : Flag} {letters : RawText} {found : Group}
    (read : letterGroup flag letters = .ok found) :
    ∀ entry ∈ found.complete, entry.2 <:+ letters := by
  induction letters generalizing flag found with
  | nil =>
      cases read
      unfold Flag.alone
      split
      · exact nofun
      · exact List.forall_mem_singleton.mpr List.nil_suffix
  | cons letter rest ih =>
      rw [letterGroup] at read
      split at read
      · cases read
      · rename_i next known
        split at read
        · cases read
          exact List.forall_mem_cons.mpr
            ⟨List.nil_suffix, List.forall_mem_singleton.mpr (List.suffix_cons letter rest)⟩
        · split at read
          · cases read
            exact List.forall_mem_singleton.mpr List.nil_suffix
          · cases later : letterGroup next rest with
            | error error =>
                rw [later] at read
                cases read
            | ok others =>
                rw [later] at read
                cases read
                exact List.forall_mem_cons.mpr ⟨List.nil_suffix, fun entry member =>
                  (ih later entry member).trans (List.suffix_cons letter rest)⟩

theorem group_complete {flag : Flag} {isLetter : Bool} {joined : Option RawText} {found : Group}
    (read : group flag isLetter joined = .ok found) :
    ∀ entry ∈ found.complete, entry.2 <:+ joined.getD [] := by
  unfold group at read
  split at read
  · cases read
    unfold Flag.alone
    split
    · exact nofun
    · exact List.forall_mem_singleton.mpr List.nil_suffix
  · split at read
    · cases read
      exact List.forall_mem_singleton.mpr List.suffix_rfl
    · split at read
      · exact letterGroup_complete read
      · cases read

/-- What a value of an option is taken from: the end of an argument, or a text of its own for two
dashes. -/
def IsTaken (arguments : List RawText) (value : RawText) : Prop :=
  ∃ purpose text, value = valueText purpose text ∧ ∃ argument ∈ arguments, text <:+ argument

theorem Options.setAll_taken {arguments : List RawText} {entries : List (Purpose × RawText)}
    (before : ∀ value, options.States value → IsTaken arguments value)
    (given : ∀ entry ∈ entries, ∃ argument ∈ arguments, entry.2 <:+ argument)
    (set : options.setAll entries = .run after) :
    ∀ value, after.States value → IsTaken arguments value := by
  intro value states
  rcases Options.states_setAll set states with earlier | ⟨entry, member, same⟩
  · exact before value earlier
  · exact ⟨entry.1, entry.2, same, given entry member⟩

theorem group_taken {arguments : List RawText} {argument : RawText} {flag : Flag}
    {isLetter : Bool} {joined : Option RawText} {found : Group}
    (here : argument ∈ arguments ∧ joined.getD [] <:+ argument)
    (read : group flag isLetter joined = .ok found) :
    ∀ entry ∈ found.complete, ∃ argument ∈ arguments, entry.2 <:+ argument :=
  fun entry member => ⟨argument, here.1, (group_complete read entry member).trans here.2⟩

/-- By induction on the classified arguments that are left: every value that is stated by now has
been taken from an argument. -/
theorem readShapes_states {arguments leftover : List RawText} {found : List (RawText × Shape)}
    (given : ∀ entry ∈ found, entry.1 ∈ arguments ∧ entry.2.joined <:+ entry.1)
    (before : ∀ value, options.States value → IsTaken arguments value)
    (read : readShapes options leftover found = .ok (.run after)) :
    ∀ value, after.States value → IsTaken arguments value := by
  fun_induction readShapes options leftover found with
  | case1 =>
      cases read
      exact before
  | case2 => cases read
  | case3 options leftover argument rest ih =>
      exact ih (List.forall_mem_cons.mp given).2 before read
  | case4 options leftover argument rest ih =>
      exact ih (List.forall_mem_cons.mp given).2 before read
  | case5 options leftover argument rest ih =>
      exact ih (List.forall_mem_cons.mp given).2 before read
  | case6 => cases read
  | case7 => cases read
  | case8 options leftover argument flag isLetter joined rest complete grouped next set ih =>
      obtain ⟨here, later⟩ := List.forall_mem_cons.mp given
      exact ih later (Options.setAll_taken before (group_taken here grouped) set) read
  | case9 => cases read
  | case10 options leftover argument flag isLetter joined complete pending grouped value rest next
      set ih =>
      obtain ⟨here, there, later⟩ :=
        (List.forall_mem_cons.mp given).imp_right List.forall_mem_cons.mp
      refine ih later (Options.setAll_taken before (fun entry member => ?_) set) read
      rcases List.mem_append.mp member with complete | pending
      · exact group_taken here grouped entry complete
      · rw [List.mem_singleton.mp pending]
        exact ⟨value, there.1, List.suffix_rfl⟩
  | case11 => cases read

theorem Options.not_states_none : ¬Options.none.States value := by
  simp [Options.States, Options.values, Options.none]

/-- Every value that arguments state is taken from one of them. -/
theorem readArguments_states {arguments : List RawText}
    (request : readArguments arguments = .ok (.run options)) :
    ∀ value, options.States value → IsTaken arguments value := by
  rw [readArguments] at request
  cases classified : shapes arguments with
  | error error =>
      rw [classified] at request
      cases request
  | ok found =>
      rw [classified] at request
      exact readShapes_states (shapes_joined classified)
        (fun value states => absurd states Options.not_states_none) request

theorem valueText_isText {purpose : Purpose} (plain : text.IsText) :
    (valueText purpose text).IsText := by
  unfold valueText
  split
  · split
    · exact RawText.isText_ofString _
    · exact nofun
  · exact plain

/-- Arguments without stray bytes state no value that has one. -/
theorem readArguments_isText {arguments : List RawText}
    (plain : ∀ argument ∈ arguments, argument.IsText)
    (request : readArguments arguments = .ok (.run options)) :
    ∀ value, options.States value → value.IsText := by
  intro value states
  obtain ⟨purpose, text, rfl, argument, member, ending⟩ := readArguments_states request value states
  exact valueText_isText fun point inside => plain argument member point (ending.subset inside)

end Options

end DartBindings.CommandLine

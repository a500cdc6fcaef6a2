import DartBindings.Proofs.Declaration.Walk

/-!
Which markers and modifiers a header gets. A walk visits tokens, and each of them is something to
it: a marker or a modifier, which waits for a header, the start of a declaration with its name,
or anything else. The markers and the modifiers of a header are those of the longest run of
waiting tokens that the walk visits directly before it.
-/

set_option autoImplicit false

namespace DartBindings.Declaration

open Source

/-! ## Visits -/

/-- What a token is to a walk. -/
inductive Role where
  | marker
  | modifier
  /-- The class keyword in front of another declaration, which is a modifier there. -/
  | ofClass
  | declares (name : Token)
  | other
  deriving DecidableEq, Repr

structure Visit where
  token : Token
  role : Role
  deriving DecidableEq, Repr

def Visit.waits (visit : Visit) : Bool :=
  match visit.role with
  | .marker | .modifier | .ofClass => true
  | .declares _ | .other => false

def Visit.marker? (visit : Visit) : Option String :=
  match visit.role with
  | .marker => some visit.token.value
  | _ => none

def Visit.modifier? (visit : Visit) : Option String :=
  match visit.role with
  | .modifier => some visit.token.value
  | .ofClass => some classKeyword
  | _ => none

/-- The last token that is taken: a declaration takes its name too. -/
def Visit.last (visit : Visit) : Token :=
  match visit.role with
  | .declares name => name
  | _ => visit.token

section Judgments

variable (dialect : Dialect) (text : List Char) (extent : Extent)

/-- The token starts a declaration, if a name comes next. -/
structure Dialect.Opens (qualified : Bool) (token : Token) : Prop where
  noModifier : dialect.isModifier token = false
  keyword : dialect.isKeyword token = true
  free : qualified = false

/-- What the token is to a walk, and from where the walk reads the next one. -/
inductive Plays (qualified : Bool) (token : Token) : Role → Nat → Prop where
  | marker : token.kind = .marker →
      Plays qualified token .marker (skipArguments text token.stop extent.stop)
  | modifier : dialect.isModifier token = true →
      Plays qualified token .modifier (skipArguments text token.stop extent.stop)
  | ofClass {next name} : dialect.Opens qualified token → token.value = classKeyword →
      nameToken text token.stop extent.stop = (next, some name) →
      name.value ∈ declarationWords → Plays qualified token .ofClass next
  | declares {next name} : dialect.Opens qualified token →
      nameToken text token.stop extent.stop = (next, some name) → name.kind = .word →
      (token.value = classKeyword → name.value ∉ declarationWords) →
      Plays qualified token (.declares name) name.stop
  | nameless {next found} : dialect.Opens qualified token →
      nameToken text token.stop extent.stop = (next, found) →
      (∀ name ∈ found, name.kind ≠ .word ∧
        (token.value = classKeyword → name.value ∉ declarationWords)) →
      Plays qualified token .other next
  | block : token.kind ≠ .marker → dialect.isModifier token = false →
      ¬ dialect.Opens qualified token → token.value = "\x7b" → extent.shallow = true →
      Plays qualified token .other (skipGroup text token.stop extent.stop '\x7b' '\x7d')
  | other : token.kind ≠ .marker → dialect.isModifier token = false →
      ¬ dialect.Opens qualified token → (token.value = "\x7b" → extent.shallow = false) →
      Plays qualified token .other token.stop

/-- The tokens that a walk visits from an offset on. -/
inductive Visits : Nat → Bool → List Visit → Prop where
  | done {pos qualified} : nextToken text pos extent.stop = none → Visits pos qualified []
  | step {pos qualified token role next visits} :
      nextToken text pos extent.stop = some token →
      Plays dialect text extent qualified token role next →
      Visits next (isQualifier (Visit.last ⟨token, role⟩)) visits →
      Visits pos qualified (⟨token, role⟩ :: visits)

end Judgments

variable {dialect : Dialect} {text : List Char} {extent : Extent}

/-! ## One step -/

section Step

variable {qualified : Bool} {token : Token} {role : Role} {next : Nat}

/-- The state of a walk after a visit. -/
def Walk.visited (walk : Walk) (visit : Visit) (next : Nat) : Walk :=
  if visit.waits then
    ⟨next, walk.markers ++ visit.marker?.toList, walk.modifiers ++ visit.modifier?.toList,
      isQualifier visit.last⟩
  else ⟨next, [], [], isQualifier visit.last⟩

def Walk.header? (walk : Walk) (visit : Visit) : Option Header :=
  match visit.role with
  | .declares name => some ⟨visit.token.value, name.value, walk.markers, walk.modifiers,
      visit.token.start, name.stop⟩
  | _ => none

theorem Dialect.Opens.kind (opens : dialect.Opens qualified token) : token.kind = .word := by
  have keyword := opens.keyword
  simp only [Dialect.isKeyword, Bool.and_eq_true, beq_iff_eq] at keyword
  exact keyword.1

theorem noMarker_of_isModifier (modifier : dialect.isModifier token = true) :
    token.kind ≠ .marker := by
  intro marker
  simp [Dialect.isModifier, marker] at modifier

theorem Walk.atToken_of_opens {walk : Walk} (opens : dialect.Opens walk.qualified token) :
    walk.atToken dialect text extent token = walk.atKeyword text extent token := by
  simp [Walk.atToken, opens.kind, opens.noModifier, opens.keyword, opens.free]

theorem Walk.atToken_of_closed {walk : Walk} (noMarker : token.kind ≠ .marker)
    (noModifier : dialect.isModifier token = false)
    (closed : ¬ dialect.Opens walk.qualified token) :
    walk.atToken dialect text extent token =
      (⟨if token.value = "\x7b" ∧ extent.shallow = true then
          skipGroup text token.stop extent.stop '\x7b' '\x7d' else token.stop,
        [], [], isQualifier token⟩, none) := by
  have shut : (dialect.isKeyword token && !walk.qualified) = false := by
    rw [Bool.eq_false_iff, Ne, Bool.and_eq_true, Bool.not_eq_true']
    exact fun both => closed ⟨noModifier, both.1, both.2⟩
  by_cases block : token.value = "\x7b" ∧ extent.shallow = true
  · simp [Walk.atToken, noMarker, noModifier, shut, block]
  · simp [Walk.atToken, noMarker, noModifier, shut, block]

theorem Walk.atToken_of_plays {walk : Walk}
    (plays : Plays dialect text extent walk.qualified token role next) :
    walk.atToken dialect text extent token =
      (walk.visited ⟨token, role⟩ next, walk.header? ⟨token, role⟩) := by
  cases plays with
  | marker marker =>
      simp [Walk.atToken, marker, visited, header?, Visit.waits, Visit.marker?, Visit.modifier?,
        Visit.last]
  | modifier modifier =>
      simp [Walk.atToken, noMarker_of_isModifier modifier, modifier, visited, header?, Visit.waits,
        Visit.marker?, Visit.modifier?, Visit.last]
  | ofClass opens keyword found word =>
      rw [Walk.atToken_of_opens opens]
      simp [Walk.atKeyword, found, keyword, word, visited, header?, Visit.waits, Visit.marker?,
        Visit.modifier?, Visit.last]
  | declares opens found word free =>
      have noClass : ¬ (token.value = classKeyword ∧ _) := fun both => free both.1 both.2
      rw [Walk.atToken_of_opens opens]
      simp [Walk.atKeyword, found, word, noClass, visited, header?, Visit.waits, Visit.last]
  | @nameless next found opens read none =>
      rw [Walk.atToken_of_opens opens]
      cases found with
      | none => simp [Walk.atKeyword, read, visited, header?, Visit.waits, Visit.last]
      | some name =>
          obtain ⟨noWord, free⟩ := none name rfl
          have noClass : ¬ (token.value = classKeyword ∧ _) := fun both => free both.1 both.2
          simp [Walk.atKeyword, read, noWord, noClass, visited, header?, Visit.waits, Visit.last]
  | block noMarker noModifier closed brace shallow =>
      rw [Walk.atToken_of_closed noMarker noModifier closed]
      simp [brace, shallow, visited, header?, Visit.waits, Visit.last]
  | other noMarker noModifier closed deep =>
      have passed : ¬ (token.value = "\x7b" ∧ extent.shallow = true) := fun both =>
        Bool.false_ne_true ((deep both.1).symm.trans both.2)
      rw [Walk.atToken_of_closed noMarker noModifier closed]
      simp [passed, visited, header?, Visit.waits, Visit.last]

theorem exists_plays (dialect : Dialect) (text : List Char) (extent : Extent) (qualified : Bool)
    (token : Token) : ∃ role next, Plays dialect text extent qualified token role next := by
  by_cases marker : token.kind = .marker
  · exact ⟨_, _, .marker marker⟩
  cases modifier : dialect.isModifier token with
  | true => exact ⟨_, _, .modifier modifier⟩
  | false =>
      by_cases opens : dialect.Opens qualified token
      · obtain ⟨next, found, read⟩ :
            ∃ next found, nameToken text token.stop extent.stop = (next, found) := ⟨_, _, rfl⟩
        by_cases word : ∃ name ∈ found, token.value = classKeyword ∧ name.value ∈ declarationWords
        · obtain ⟨name, rfl, keyword, word⟩ := word
          exact ⟨_, _, .ofClass opens keyword read word⟩
        · have free {name : Token} (here : name ∈ found) (keyword : token.value = classKeyword) :
              name.value ∉ declarationWords := fun listed => word ⟨name, here, keyword, listed⟩
          by_cases named : ∃ name ∈ found, name.kind = .word
          · obtain ⟨name, rfl, named⟩ := named
            exact ⟨_, _, .declares opens read named (free rfl)⟩
          · exact ⟨_, _, .nameless opens read fun name here =>
              ⟨fun kind => named ⟨name, here, kind⟩, free here⟩⟩
      · by_cases block : token.value = "\x7b" ∧ extent.shallow = true
        · exact ⟨_, _, .block marker modifier opens block.1 block.2⟩
        · refine ⟨_, _, .other marker modifier opens fun brace => ?_⟩
          exact Bool.eq_false_iff.mpr fun shallow => block ⟨brace, shallow⟩

theorem Plays.of_marker (plays : Plays dialect text extent qualified token role next)
    (marker : token.kind = .marker) :
    role = .marker ∧ next = skipArguments text token.stop extent.stop := by
  cases plays with
  | marker => exact ⟨rfl, rfl⟩
  | modifier modifier => exact absurd marker (noMarker_of_isModifier modifier)
  | ofClass opens | declares opens | nameless opens => exact absurd marker (by simp [opens.kind])
  | block noMarker | other noMarker => exact absurd marker noMarker

theorem Plays.of_modifier (plays : Plays dialect text extent qualified token role next)
    (modifier : dialect.isModifier token = true) :
    role = .modifier ∧ next = skipArguments text token.stop extent.stop := by
  cases plays with
  | marker marker => exact absurd marker (noMarker_of_isModifier modifier)
  | modifier => exact ⟨rfl, rfl⟩
  | ofClass opens | declares opens | nameless opens =>
      exact absurd modifier (by simp [opens.noModifier])
  | block _ noModifier | other _ noModifier => exact absurd modifier (by simp [noModifier])

/-- Of a keyword that may open a declaration the token after it decides. -/
theorem Plays.of_opens {found : Option Token} {after : Nat}
    (plays : Plays dialect text extent qualified token role next)
    (opens : dialect.Opens qualified token)
    (read : nameToken text token.stop extent.stop = (after, found)) :
    (∃ name ∈ found, token.value = classKeyword ∧ name.value ∈ declarationWords ∧
        role = .ofClass ∧ next = after) ∨
      (∃ name ∈ found, name.kind = .word ∧
        (token.value = classKeyword → name.value ∉ declarationWords) ∧
        role = .declares name ∧ next = name.stop) ∨
      ((∀ name ∈ found, name.kind ≠ .word ∧
          (token.value = classKeyword → name.value ∉ declarationWords)) ∧
        role = .other ∧ next = after) := by
  cases plays with
  | marker marker => exact absurd marker (by simp [opens.kind])
  | modifier modifier => exact absurd modifier (by simp [opens.noModifier])
  | ofClass _ keyword same word =>
      cases same.symm.trans read
      exact .inl ⟨_, rfl, keyword, word, rfl, rfl⟩
  | declares _ same word free =>
      cases same.symm.trans read
      exact .inr (.inl ⟨_, rfl, word, free, rfl, rfl⟩)
  | nameless _ same none =>
      cases same.symm.trans read
      exact .inr (.inr ⟨none, rfl, rfl⟩)
  | block _ _ closed | other _ _ closed => exact absurd opens closed

/-- A token is one thing only. -/
theorem Plays.unique {same : Role} {after : Nat}
    (plays : Plays dialect text extent qualified token role next)
    (again : Plays dialect text extent qualified token same after) :
    role = same ∧ next = after := by
  cases plays with
  | marker marker => exact (again.of_marker marker).imp Eq.symm Eq.symm
  | modifier modifier => exact (again.of_modifier modifier).imp Eq.symm Eq.symm
  | ofClass opens keyword read word =>
      rcases again.of_opens opens read with
        ⟨_, ⟨⟩, -, -, rfl, rfl⟩ | ⟨_, ⟨⟩, -, free, -⟩ | ⟨none, -⟩
      · exact ⟨rfl, rfl⟩
      · exact absurd word (free keyword)
      · exact absurd word ((none _ rfl).2 keyword)
  | declares opens read word free =>
      rcases again.of_opens opens read with
        ⟨_, ⟨⟩, keyword, listed, -⟩ | ⟨_, ⟨⟩, -, -, rfl, rfl⟩ | ⟨none, -⟩
      · exact absurd listed (free keyword)
      · exact ⟨rfl, rfl⟩
      · exact absurd word (none _ rfl).1
  | nameless opens read none =>
      rcases again.of_opens opens read with
        ⟨name, here, keyword, listed, -⟩ | ⟨name, here, word, -⟩ | ⟨-, rfl, rfl⟩
      · exact absurd listed ((none name here).2 keyword)
      · exact absurd word (none name here).1
      · exact ⟨rfl, rfl⟩
  | block noMarker noModifier closed brace shallow =>
      cases again with
      | marker marker => exact absurd marker noMarker
      | modifier modifier => exact absurd modifier (by simp [noModifier])
      | ofClass opens | declares opens | nameless opens => exact absurd opens closed
      | block => exact ⟨rfl, rfl⟩
      | other _ _ _ deep => exact absurd shallow (by simp [deep brace])
  | other noMarker noModifier closed deep =>
      cases again with
      | marker marker => exact absurd marker noMarker
      | modifier modifier => exact absurd modifier (by simp [noModifier])
      | ofClass opens | declares opens | nameless opens => exact absurd opens closed
      | block _ _ _ brace shallow => exact absurd shallow (by simp [deep brace])
      | other => exact ⟨rfl, rfl⟩

theorem Plays.lt_next (plays : Plays dialect text extent qualified token role next) {pos : Nat}
    (read : nextToken text pos extent.stop = some token) : pos < next := by
  let walk : Walk := ⟨pos, [], [], qualified⟩
  have step : walk.atToken dialect text extent token = _ := Walk.atToken_of_plays plays
  have advances := @Walk.lt_atToken dialect walk text extent token read
  rw [step] at advances
  unfold Walk.visited at advances
  split at advances <;> exact advances

theorem le_skipGroup {start stop : Nat} {opening closing : Char}
    (inside : skipGroup text start stop opening closing < stop) :
    start ≤ skipGroup text start stop opening closing :=
  Nat.le_of_not_lt fun before => Nat.lt_irrefl _ (lt_skipGroup before inside)

theorem le_skipArguments {pos stop : Nat} (inside : skipArguments text pos stop < stop) :
    pos ≤ skipArguments text pos stop :=
  Nat.le_of_not_lt fun before => Nat.lt_irrefl _ (lt_skipArguments before inside)

theorem le_nameToken {pos stop : Nat} (inside : (nameToken text pos stop).1 < stop) :
    pos ≤ (nameToken text pos stop).1 :=
  Nat.le_of_not_lt fun before => Nat.lt_irrefl _ (lt_nameToken text before inside)

/-- What a visit takes ends before the next token is read. -/
theorem Plays.stop_le (plays : Plays dialect text extent qualified token role next)
    (inside : next < extent.stop) : (Visit.last ⟨token, role⟩).stop ≤ next := by
  cases plays with
  | marker | modifier => exact le_skipArguments inside
  | ofClass _ _ found | nameless _ found =>
      have after := @le_nameToken text token.stop extent.stop
      rw [found] at after
      exact after inside
  | declares => exact Nat.le_refl _
  | block => exact le_skipGroup inside
  | other => exact Nat.le_refl _

theorem Plays.start_lt (plays : Plays dialect text extent qualified token role next) {pos : Nat}
    (read : nextToken text pos extent.stop = some token) :
    token.start < (Visit.last ⟨token, role⟩).stop := by
  obtain ⟨-, inside, before⟩ := nextToken_bounds read
  cases plays with
  | declares _ found =>
      have after := lt_nameToken text before inside
      have name := @nameToken_stop text token.stop extent.stop
      rw [found] at after name
      exact Nat.lt_trans after (name rfl)
  | _ => exact before

end Step

/-! ## Whole walks -/

theorem exists_visits (dialect : Dialect) (text : List Char) (extent : Extent) (pos : Nat)
    (qualified : Bool) : ∃ visits, Visits dialect text extent pos qualified visits := by
  cases read : nextToken text pos extent.stop with
  | none => exact ⟨[], .done read⟩
  | some token =>
      obtain ⟨role, next, plays⟩ := exists_plays dialect text extent qualified token
      have advances := plays.lt_next read
      have inside := (nextToken_advances read).2
      obtain ⟨visits, rest⟩ := exists_visits dialect text extent next
        (isQualifier (Visit.last ⟨token, role⟩))
      exact ⟨⟨token, role⟩ :: visits, .step read plays rest⟩
termination_by extent.stop - pos

section Visits

variable {pos : Nat} {qualified : Bool} {visits : List Visit}

theorem Visits.unique {others : List Visit}
    (visited : Visits dialect text extent pos qualified visits)
    (again : Visits dialect text extent pos qualified others) : others = visits := by
  induction visited generalizing others with
  | done ended =>
      cases again with
      | done => rfl
      | step read => cases ended.symm.trans read
  | step read plays _ later =>
      cases again with
      | done ended => cases ended.symm.trans read
      | step readAgain playsAgain rest =>
          cases read.symm.trans readAgain
          obtain ⟨rfl, rfl⟩ := plays.unique playsAgain
          rw [later rest]

theorem Visits.start_le (visited : Visits dialect text extent pos qualified visits) :
    ∀ visit ∈ visits, pos ≤ visit.token.start := by
  induction visited with
  | done => nofun
  | step read plays _ later =>
      refine List.forall_mem_cons.mpr ⟨(nextToken_bounds read).1, fun visit member => ?_⟩
      exact Nat.le_trans (Nat.le_of_lt (plays.lt_next read)) (later visit member)

theorem Visits.proper (visited : Visits dialect text extent pos qualified visits) :
    ∀ visit ∈ visits, visit.token.start < visit.last.stop := by
  induction visited with
  | done => nofun
  | step read plays _ later =>
      exact List.forall_mem_cons.mpr ⟨plays.start_lt read, later⟩

/-- Each visit takes what stands after all that was taken before. -/
theorem Visits.ordered (visited : Visits dialect text extent pos qualified visits) :
    visits.Pairwise fun first second => first.last.stop ≤ second.token.start := by
  induction visited with
  | done => exact .nil
  | @step pos qualified token role next visits read plays rest ordered =>
      refine .cons (fun visit member => ?_) ordered
      have after := rest.start_le visit member
      -- A token is read from the next offset, so that is inside the window.
      cases rest with
      | done => cases member
      | step readNext _ _ =>
          exact Nat.le_trans (plays.stop_le (nextToken_advances readNext).2) after

end Visits

/-! ## Attributions -/

/-- A header with the visits since the header before it. -/
structure Attribution where
  skipped : List Visit
  run : List Visit
  visit : Visit
  name : Token

def Attribution.visits (attribution : Attribution) : List Visit :=
  attribution.skipped ++ (attribution.run ++ [attribution.visit])

def Attribution.header (attribution : Attribution) : Header where
  keyword := attribution.visit.token.value
  name := attribution.name.value
  markers := attribution.run.filterMap Visit.marker?
  modifiers := attribution.run.filterMap Visit.modifier?
  start := attribution.visit.token.start
  stop := attribution.name.stop

def Visit.declares (visit : Visit) : Prop :=
  ∃ name, visit.role = .declares name

/-- The run is the longest one of visits that wait, and no other header is among the visits. -/
structure Attribution.Sound (attribution : Attribution) : Prop where
  declares : attribution.visit.role = .declares attribution.name
  run : ∀ visit ∈ attribution.run, visit.waits = true
  longest : ∀ visit ∈ attribution.skipped.getLast?, visit.waits = false
  single : ∀ visit ∈ attribution.skipped, ¬ visit.declares

/-- The visits fall into one block for each header and a rest without headers. -/
structure Attributed (visits : List Visit) (attributions : List Attribution) : Prop where
  split : ∃ rest, visits = attributions.flatMap Attribution.visits ++ rest ∧
    ∀ visit ∈ rest, ¬ visit.declares
  sound : ∀ attribution ∈ attributions, attribution.Sound

section Attributed

variable {pending visits : List Visit} {attributions : List Attribution} {visit : Visit}

theorem not_declares_of_waits (waits : visit.waits = true) : ¬ visit.declares := by
  rintro ⟨name, declares⟩
  rw [Visit.waits, declares] at waits
  cases waits

/-- Visits that wait at the end of a walk wait for nothing. -/
theorem attributed_pending (waits : ∀ visit ∈ pending, visit.waits = true) :
    Attributed pending [] where
  split := ⟨pending, rfl, fun visit member => not_declares_of_waits (waits visit member)⟩
  sound := nofun

theorem Attributed.declared {name : Token} (attributed : Attributed visits attributions)
    (waits : ∀ visit ∈ pending, visit.waits = true) (declares : visit.role = .declares name) :
    Attributed (pending ++ visit :: visits) (⟨[], pending, visit, name⟩ :: attributions) where
  split := by
    obtain ⟨rest, rfl, none⟩ := attributed.split
    exact ⟨rest, by simp [Attribution.visits], none⟩
  sound := List.forall_mem_cons.mpr ⟨⟨declares, waits, nofun, nofun⟩, attributed.sound⟩

/-- What is no marker, modifier or header makes void what waits. -/
theorem Attributed.voided (attributed : Attributed visits attributions)
    (waits : ∀ visit ∈ pending, visit.waits = true) (other : visit.role = .other) :
    ∃ more, Attributed (pending ++ visit :: visits) more ∧
      more.map Attribution.header = attributions.map Attribution.header := by
  obtain ⟨rest, rfl, none⟩ := attributed.split
  have skipped : ∀ early ∈ pending ++ [visit], ¬ early.declares := by
    have free : ∀ early ∈ pending, ¬ early.declares := fun early member =>
      not_declares_of_waits (waits early member)
    refine List.forall_mem_append.mpr ⟨free, List.forall_mem_singleton.mpr ?_⟩
    rintro ⟨name, declares⟩
    rw [other] at declares
    cases declares
  cases attributions with
  | nil =>
      refine ⟨[], ⟨⟨pending ++ visit :: rest, rfl, ?_⟩, nofun⟩, rfl⟩
      rw [List.append_cons]
      exact List.forall_mem_append.mpr ⟨skipped, none⟩
  | cons first others =>
      obtain ⟨sound, soundOthers⟩ := List.forall_mem_cons.mp attributed.sound
      refine ⟨{ first with skipped := pending ++ visit :: first.skipped } :: others,
        ⟨⟨rest, by simp [Attribution.visits], none⟩,
          List.forall_mem_cons.mpr ⟨⟨sound.declares, sound.run, ?_, ?_⟩, soundOthers⟩⟩, rfl⟩
      · intro early last
        rw [List.getLast?_append, List.getLast?_cons] at last
        cases before : first.skipped.getLast? with
        | none =>
            rw [before] at last
            cases last
            simp [Visit.waits, other]
        | some late =>
            rw [before] at last
            cases last
            exact sound.longest late before
      · rw [List.append_cons]
        exact List.forall_mem_append.mpr ⟨skipped, sound.single⟩

end Attributed

theorem Walk.header?_of_waits {walk : Walk} {visit : Visit} (waits : visit.waits = true) :
    walk.header? visit = none := by
  unfold Walk.header?
  split
  · rename_i name declares
    exact absurd ⟨name, declares⟩ (not_declares_of_waits waits)
  · rfl

theorem Walk.headers_of_plays {walk : Walk} {token : Token} {role : Role} {next : Nat}
    (read : nextToken text walk.pos extent.stop = some token)
    (plays : Plays dialect text extent walk.qualified token role next) :
    walk.headers dialect text extent = (walk.header? ⟨token, role⟩).toList ++
      (walk.visited ⟨token, role⟩ next).headers dialect text extent := by
  rw [Walk.headers_of_some read, Walk.atToken_of_plays plays]

/-- What a walk finds with these visits waiting. -/
theorem Visits.attributed {pos : Nat} {qualified : Bool} {visits : List Visit}
    (visited : Visits dialect text extent pos qualified visits) {pending : List Visit}
    (waits : ∀ visit ∈ pending, visit.waits = true) :
    ∃ attributions, Attributed (pending ++ visits) attributions ∧
      Walk.headers dialect text extent ⟨pos, pending.filterMap Visit.marker?,
        pending.filterMap Visit.modifier?, qualified⟩ = attributions.map Attribution.header := by
  induction visited generalizing pending with
  | done ended =>
      refine ⟨[], ?_, Walk.headers_of_none ended⟩
      rw [List.append_nil]
      exact attributed_pending waits
  | @step pos qualified token role next visits read plays rest later =>
      have none : ∀ visit ∈ ([] : List Visit), visit.waits = true := List.forall_mem_nil _
      rw [@Walk.headers_of_plays dialect text extent ⟨pos, _, _, qualified⟩ token role next read
        plays]
      by_cases waiting : (Visit.mk token role).waits = true
      · have waitsToo : ∀ visit ∈ pending ++ [⟨token, role⟩], visit.waits = true :=
          List.forall_mem_append.mpr ⟨waits, List.forall_mem_singleton.mpr waiting⟩
        obtain ⟨attributions, attributed, found⟩ := later waitsToo
        refine ⟨attributions, by simpa using attributed, ?_⟩
        rw [Walk.header?_of_waits waiting, Walk.visited, if_pos waiting, ← found,
          List.filterMap_append, List.filterMap_append]
        rfl
      · rw [Walk.visited, if_neg waiting]
        cases role with
        | marker | modifier | ofClass => exact absurd rfl waiting
        | declares name =>
            obtain ⟨attributions, attributed, found⟩ := later none
            refine ⟨_, attributed.declared waits rfl, ?_⟩
            rw [List.map_cons, ← found]
            rfl
        | other =>
            obtain ⟨attributions, attributed, found⟩ := later none
            have other : (Visit.mk token .other).role = .other := rfl
            obtain ⟨more, voided, same⟩ := attributed.voided waits other
            refine ⟨more, voided, ?_⟩
            rw [same, ← found]
            rfl

theorem Attributed.disjoint {visits : List Visit} {attributions : List Attribution}
    (attributed : Attributed visits attributions)
    (ordered : visits.Pairwise fun first second => first.last.stop ≤ second.token.start)
    (proper : ∀ visit ∈ visits, visit.token.start < visit.last.stop) :
    attributions.Pairwise fun first second => ∀ visit ∈ first.run, visit ∉ second.run := by
  obtain ⟨rest, rfl, -⟩ := attributed.split
  have inRun {attribution : Attribution} {visit : Visit} (member : visit ∈ attribution.run) :
      visit ∈ attribution.visits :=
    List.mem_append_right _ (List.mem_append_left _ member)
  have apart := (List.pairwise_flatMap.mp (List.pairwise_append.mp ordered).1).2
  refine apart.imp_of_mem fun {first second} here _ before visit inFirst inSecond => ?_
  have inVisits : visit ∈ attributions.flatMap Attribution.visits :=
    List.mem_flatMap.mpr ⟨first, here, inRun inFirst⟩
  exact absurd (proper visit (List.mem_append_left rest inVisits))
    (Nat.not_lt.mpr (before visit (inRun inFirst) visit (inRun inSecond)))

/-- The headers of a window are those of an attribution of all that the walk visits, one thing
after the other in the text. No visit is in two runs. -/
theorem headers_attributed (dialect : Dialect) (text : List Char) (start stop : Nat)
    (shallow : Bool) :
    ∃ visits attributions,
      Visits dialect text ⟨stop, shallow⟩ start false visits ∧
      (∀ others, Visits dialect text ⟨stop, shallow⟩ start false others → others = visits) ∧
      (visits.Pairwise fun first second => first.last.stop ≤ second.token.start) ∧
      Attributed visits attributions ∧
      (attributions.Pairwise fun first second => ∀ visit ∈ first.run, visit ∉ second.run) ∧
      headers dialect text start stop shallow = attributions.map Attribution.header := by
  obtain ⟨visits, visited⟩ := exists_visits dialect text ⟨stop, shallow⟩ start false
  have none : ∀ visit ∈ ([] : List Visit), visit.waits = true := nofun
  obtain ⟨attributions, attributed, found⟩ := visited.attributed none
  have disjoint := Attributed.disjoint attributed visited.ordered visited.proper
  exact ⟨visits, attributions, visited, fun others => visited.unique, visited.ordered, attributed,
    disjoint, found⟩

end DartBindings.Declaration

import DartBindings.Session

/-!
Sessions with a past. What a run comes to depends on the types and removals registered before it
and on the files that it finds. Nothing else that has happened in the session has an effect:
neither earlier runs, whether they were completed or broken off, nor the files that these found,
nor what they reported.
-/

set_option autoImplicit false

namespace DartBindings

open Text Files

/-- The step changes what the generator holds. -/
def Step.registers : Step → Bool
  | .addType _ _ | .addRemoval _ => true
  | .isRemoved _ | .collect _ _ _ | .generate _ _ _ _ | .render _ => false

/-- The step goes through source trees, and reports. -/
def Step.runs : Step → Bool
  | .collect _ _ _ | .generate _ _ _ _ => true
  | .addType _ _ | .addRemoval _ | .isRemoved _ | .render _ => false

/-- The generator after a step. -/
def Step.register (generator : Generator) : Step → Generator
  | .addType source target => generator.addType source target
  | .addRemoval removal => generator.addRemoval removal
  | .isRemoved _ | .collect _ _ _ | .generate _ _ _ _ | .render _ => generator

/-- The session after a past: steps, each with the files that it found. These need not be what
the step before it left. -/
def Session.after [Regex.CharacterNames] (session : Session) (past : List (World × Step)) :
    Session :=
  past.foldl (fun session entry => (session.perform entry.1 entry.2).1) session

/-- The part of a past that registers types and removals. -/
def registrations (past : List (World × Step)) : List (World × Step) :=
  past.filter fun entry => entry.2.registers

theorem Step.register_of_not_registers {step : Step} (generator : Generator)
    (other : step.registers = false) :
    step.register generator = generator := by
  cases step with
  | addType | addRemoval => cases other
  | isRemoved | collect | generate | render => rfl

section Runs

variable [Regex.CharacterNames] {session other : Session} {world : World} {step : Step}

/-! ## One step -/

/-- Whatever a step comes to, failures included, it does to the generator what it registers. -/
theorem Session.perform_generator (session : Session) (world : World) (step : Step) :
    (session.perform world step).1.generator = step.register session.generator := by
  cases step <;> rfl

/-- A run takes nothing from the session but its generator, and keeps none of its reports. -/
theorem Session.perform_of_runs (runs : step.runs = true)
    (same : session.generator = other.generator) (world : World) :
    session.perform world step = other.perform world step := by
  cases step with
  | collect | generate => simp only [Session.perform, Session.afterRun, same]
  | addType | addRemoval | isRemoved | render => cases runs

/-! ## A past -/

theorem Session.after_generator (session : Session) (past : List (World × Step)) :
    (session.after past).generator =
      past.foldl (fun generator entry => entry.2.register generator) session.generator := by
  induction past generalizing session with
  | nil => rfl
  | cons entry past ih =>
      rw [Session.after, List.foldl_cons, List.foldl_cons, ← Session.perform_generator]
      exact ih _

theorem Session.after_registrations_generator (session : Session) (past : List (World × Step)) :
    (session.after (registrations past)).generator = (session.after past).generator := by
  rw [Session.after_generator, Session.after_generator, registrations, List.foldl_filter]
  congr 1
  funext generator entry
  split
  · rfl
  · rename_i silent
    exact (Step.register_of_not_registers generator (Bool.eq_false_iff.mpr silent)).symm

/-- After any past, a run comes to what it comes to in a new session, with a generator of the same
kind, in which nothing has happened but the registrations of that past: the same reports are left
in the session, the same files in the world, and the same lines, answer or failure come out. -/
theorem Session.perform_eq_registered (channel eventBase : RawText) (isVerbose : Bool)
    (past : List (World × Step)) (world : World) {step : Step} (runs : step.runs = true) :
    let session := Session.start (Generator.new channel eventBase isVerbose)
    (session.after past).perform world step =
      (session.after (registrations past)).perform world step := by
  intro session
  exact Session.perform_of_runs runs (session.after_registrations_generator past).symm world

end Runs

/-- The past holds a text that is no pattern, and a run whose warning is still there. -/
theorem Session.perform_eq_registered_generate :
    let _ := Regex.asciiNames
    let source := "@NativeBridge class A \x7b fun f() \x7b\x7d fun f() \x7b\x7d \x7d"
    let world : World :=
      ⟨⟨[(["src"], .directory), (["src", "A.kt"], .file (encodeUtf8 source))]⟩, []⟩
    let past : List (World × Step) := [
      (world, .collect (some "src") none false), (world, .addRemoval (.matching "(")),
      (world, .isRemoved "A"), (world, .addType "UUID" "String")]
    let session := Session.start (Generator.new "channel" "events/" true)
    (session.after past).warnings = [.duplicateMember "A" "f"] ∧
      Step.runs (.generate (some "src") none none false) = true ∧
      (session.after past).perform world (.generate (some "src") none none false) =
        (session.after (registrations past)).perform world
          (.generate (some "src") none none false) := by
  intro _ source world past session
  exact ⟨by decide +kernel, rfl, Session.perform_eq_registered _ _ _ past world rfl⟩

end DartBindings

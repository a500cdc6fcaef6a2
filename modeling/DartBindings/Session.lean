import DartBindings.Generator

/-!
Sessions: a generator that is used step after step, on files that each step leaves to the next.

A session keeps the warnings and conflicts of its last run. Registering types and removals, and
asking about them, leaves these alone; so does rendering.
-/

set_option autoImplicit false

namespace DartBindings

open Text Bridge Declaration Files

variable [Regex.CharacterNames]

/-- A generator in use, and what its last run reported. -/
structure Session where
  generator : Generator
  warnings : List Warning
  conflicts : List Conflict

/-- A generator that has not run. -/
def Session.start (generator : Generator) : Session := ⟨generator, [], []⟩

inductive Step where
  | addType (source target : String)
  | addRemoval (removal : Removal)
  | isRemoved (name : String)
  | collect (kotlin swift : Option RawText) (ignoreMissing : Bool)
  | generate (kotlin swift output : Option RawText) (ignoreMissing : Bool)
  | render (entities : List Entity)
  deriving DecidableEq, Repr

inductive Answer where
  | done
  | removed (isRemoved : Bool)
  | entities (entities : List Entity)
  | code (code : RawText)
  deriving DecidableEq, Repr

/-- The outcome of a step: what it prints, and its answer or why it failed. -/
structure StepOutcome where
  printed : List String
  complaints : List String
  result : Except Failure Answer

def StepOutcome.silent (result : Except Failure Answer) : StepOutcome := ⟨[], [], result⟩

/-- What a run is to a session: its reports are kept. -/
def Session.afterRun {α : Type} (session : Session) (run : Run α) (answer : α → Answer) :
    Session × World × StepOutcome :=
  ({ session with warnings := run.warnings, conflicts := run.conflicts }, run.world,
    ⟨run.printed, run.complaints, run.result.map answer⟩)

def Session.perform (session : Session) (world : World) (step : Step) :
    Session × World × StepOutcome :=
  match step with
  | .addType source target =>
    ({ session with generator := session.generator.addType source target }, world,
      .silent (.ok .done))
  | .addRemoval removal =>
    ({ session with generator := session.generator.addRemoval removal }, world,
      .silent (.ok .done))
  | .isRemoved name =>
    let found := (DartBindings.isRemoved session.generator.removals name).mapError
      Failure.invalidPattern
    (session, world, .silent (found.map .removed))
  | .collect kotlin swift ignoreMissing =>
    session.afterRun (session.generator.collect world kotlin swift ignoreMissing) .entities
  | .generate kotlin swift output ignoreMissing =>
    session.afterRun (session.generator.generate world kotlin swift output ignoreMissing) .code
  | .render entities =>
    (session, world, .silent (.ok (.code (session.generator.render entities))))

end DartBindings

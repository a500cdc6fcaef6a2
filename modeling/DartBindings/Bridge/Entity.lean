/-!
Entities: the native classes that are bridged, and their members.
-/

set_option autoImplicit false

namespace DartBindings.Bridge

/-- Where an entity is declared: on one platform, or on both. -/
inductive Origin where
  | android
  | ios
  | unified
  deriving DecidableEq, Repr

/-- The name of an origin in reports. -/
def Origin.label : Origin → String
  | .android => "android"
  | .ios => "ios"
  | .unified => "unified"

/-- A parameter with the spelling of its native type. -/
structure Parameter where
  name : String
  sourceType : String
  deriving DecidableEq, Repr

/-- How a member answers: once, or as a stream. -/
inductive CallableKind where
  | call
  | subscription
  deriving DecidableEq, Repr

/-- A bridged member with its native return type. The sink that a subscription writes to is
not among its parameters. -/
structure Callable where
  kind : CallableKind
  name : String
  returnType : String
  parameters : List Parameter
  deriving DecidableEq, Repr

/-- A native class whose members are bridged. -/
structure Entity where
  name : String
  callables : List Callable
  origin : Origin
  deriving DecidableEq, Repr

def Entity.callableNames (entity : Entity) : List String :=
  entity.callables.map (·.name)

def Parameter.describe (parameter : Parameter) : String :=
  parameter.name ++ ": " ++ parameter.sourceType

/-- The signature of a member on one line. -/
def Callable.describe (callable : Callable) : String :=
  let parameters := ", ".intercalate (callable.parameters.map Parameter.describe)
  let result :=
    match callable.kind with
    | .call => callable.returnType
    | .subscription => "stream of " ++ callable.returnType
  callable.name ++ "(" ++ parameters ++ "): " ++ result

/-! ## Members of no known kind -/

/-- A member as a caller hands it over: a callable, or something else of which only the name of
its type is known. -/
inductive Member where
  | callable (callable : Callable)
  | foreign (typeName : String)
  deriving DecidableEq, Repr

/-- What a member was wanted for. -/
inductive Use where
  | emission
  | description
  deriving DecidableEq, Repr

structure UnsupportedMember where
  use : Use
  typeName : String
  deriving DecidableEq, Repr

def UnsupportedMember.message (failure : UnsupportedMember) : String :=
  match failure.use with
  | .emission => "Unsupported callable kind: " ++ failure.typeName
  | .description => "Unsupported callable: " ++ failure.typeName

/-- The callable that a member is, if it is one. -/
def Member.accept (use : Use) : Member → Except UnsupportedMember Callable
  | .callable known => .ok known
  | .foreign typeName => .error ⟨use, typeName⟩

/-- The entity with these members; the first one that is no callable is refused. -/
def Entity.ofMembers (name : String) (origin : Origin) (members : List Member) :
    Except UnsupportedMember Entity :=
  (members.mapM (Member.accept .emission)).map fun callables => ⟨name, callables, origin⟩

end DartBindings.Bridge

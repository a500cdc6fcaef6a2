import DartBindings.Proofs.Declaration.Walk
import DartBindings.Proofs.Source.Stretch

/-!
Readers in lockstep. Two readers, each in a window of a text of its own, may stand at such places
that they read the same tokens, and that each token, each group and each argument list takes them to
such places again. Walks from there find the same headers, at the offsets that these have in the
other text.
-/

set_option autoImplicit false

namespace DartBindings.Declaration

open Source

/-- The offsets in one text of what starts, and of what stops, at an offset of another one. -/
structure Offsets where
  start : Nat → Nat
  stop : Nat → Nat

namespace Offsets

def token (offsets : Offsets) (token : Token) : Token :=
  { token with start := offsets.start token.start, stop := offsets.stop token.stop }

def header (offsets : Offsets) (header : Header) : Header :=
  { header with start := offsets.start header.start, stop := offsets.stop header.stop }

@[simp] theorem token_kind (offsets : Offsets) (token : Token) :
    (offsets.token token).kind = token.kind := rfl

@[simp] theorem token_value (offsets : Offsets) (token : Token) :
    (offsets.token token).value = token.value := rfl

@[simp] theorem token_stop (offsets : Offsets) (token : Token) :
    (offsets.token token).stop = offsets.stop token.stop := rfl

@[simp] theorem isQualifier_token (offsets : Offsets) (token : Token) :
    isQualifier (offsets.token token) = isQualifier token := rfl

@[simp] theorem isModifier_token (dialect : Dialect) (offsets : Offsets) (token : Token) :
    dialect.isModifier (offsets.token token) = dialect.isModifier token := rfl

@[simp] theorem isKeyword_token (dialect : Dialect) (offsets : Offsets) (token : Token) :
    dialect.isKeyword (offsets.token token) = dialect.isKeyword token := rfl

end Offsets

/-- Readers of `text` up to `stop` and of `other` up to `otherStop` stay in lockstep where `At`
holds of the places at which they stand. -/
structure Lockstep (dialect : Dialect) (text : List Char) (stop : Nat) (other : List Char)
    (otherStop : Nat) (offsets : Offsets) (At : Nat → Nat → Prop) : Prop where
  nextToken : ∀ {pos place}, At pos place →
    Source.nextToken other place otherStop = (Source.nextToken text pos stop).map offsets.token
  afterToken : ∀ {pos place token}, At pos place → Source.nextToken text pos stop = some token →
    At token.stop (offsets.stop token.stop)
  skipGroup : ∀ {pos place opening closing}, At pos place → Delimits opening closing →
    At (Declaration.skipGroup text pos stop opening closing)
      (Declaration.skipGroup other place otherStop opening closing)
  skipArguments : ∀ {pos place token}, At pos place →
    Source.nextToken text pos stop = some token →
    token.kind = .marker ∨ dialect.isModifier token = true →
    At (Declaration.skipArguments text token.stop stop)
      (Declaration.skipArguments other (offsets.stop token.stop) otherStop)

/-- A step of one walk finds what a step of another one finds, and takes them to such places. -/
structure PairedStep (offsets : Offsets) (At : Nat → Nat → Prop)
    (step other : Walk × Option Header) : Prop where
  found : other.2 = step.2.map offsets.header
  same : other.1 = { step.1 with pos := other.1.pos }
  there : At step.1.pos other.1.pos
  behind : ∀ header ∈ step.2, At header.stop (offsets.stop header.stop)

section PairedStep

variable {offsets : Offsets} {At : Nat → Nat → Prop}

/-- A step without a header. -/
theorem PairedStep.move {pos place : Nat} (there : At pos place) (markers modifiers : List String)
    (qualified : Bool) :
    PairedStep offsets At (⟨pos, markers, modifiers, qualified⟩, none)
      (⟨place, markers, modifiers, qualified⟩, none) :=
  ⟨rfl, rfl, there, fun _ none => by cases none⟩

theorem PairedStep.ite {condition : Bool} {first second other others : Walk × Option Header}
    (yes : condition = true → PairedStep offsets At first other)
    (no : condition = false → PairedStep offsets At second others) :
    PairedStep offsets At (if condition then first else second)
      (if condition then other else others) := by
  cases condition with
  | true => exact yes rfl
  | false => exact no rfl

end PairedStep

namespace Lockstep

variable {dialect : Dialect} {text other : List Char} {stop otherStop pos place : Nat}
  {offsets : Offsets} {At : Nat → Nat → Prop} {token : Token}

/-- The readers may stand apart after type parameters, but then the same name follows. -/
theorem nameToken (lockstep : Lockstep dialect text stop other otherStop offsets At)
    (here : At pos place) :
    ∃ next, Declaration.nameToken other place otherStop =
        (next, (Declaration.nameToken text pos stop).2.map offsets.token) ∧
      At (Declaration.nameToken text pos stop).1 next := by
  have same := lockstep.nextToken here
  unfold Declaration.nameToken
  cases read : Source.nextToken text pos stop with
  | none =>
      rw [read] at same
      rw [same]
      exact ⟨place, rfl, here⟩
  | some token =>
      rw [read] at same
      rw [same]
      cases group : token.value == "<" with
      | false =>
          simp only [Option.map_some, Offsets.token_value, group, Bool.false_eq_true, ↓reduceIte]
          exact ⟨place, rfl, here⟩
      | true =>
          have next := lockstep.skipGroup (lockstep.afterToken here read) .angle
          simp only [Option.map_some, Offsets.token_value, Offsets.token_stop, group, ↓reduceIte]
          exact ⟨_, congrArg _ (lockstep.nextToken next), next⟩

theorem atKeyword (lockstep : Lockstep dialect text stop other otherStop offsets At)
    (after : At token.stop (offsets.stop token.stop)) (walk : Walk) (shallow : Bool) :
    PairedStep offsets At (walk.atKeyword text ⟨stop, shallow⟩ token)
      ({ walk with pos := place }.atKeyword other ⟨otherStop, shallow⟩ (offsets.token token)) := by
  obtain ⟨next, same, ahead⟩ := lockstep.nameToken after
  have name := nameToken_snd text token.stop stop
  unfold Walk.atKeyword
  simp only [Offsets.token_stop, Offsets.token_value, Offsets.isQualifier_token, same]
  generalize Declaration.nameToken text token.stop stop = found at name ahead
  obtain ⟨after, found⟩ := found
  cases found with
  | none => exact .move ahead _ _ _
  | some found =>
      have beyond := lockstep.afterToken ahead name.symm
      simp only [Option.map_some, Offsets.token_value, Offsets.token_kind,
        Offsets.isQualifier_token]
      refine .ite (fun _ => .move ahead _ _ _) fun _ => .ite (fun _ => ?_) fun _ =>
        .move ahead _ _ _
      refine ⟨rfl, rfl, beyond, fun header member => ?_⟩
      cases member
      exact beyond

theorem atToken (lockstep : Lockstep dialect text stop other otherStop offsets At)
    (here : At pos place) (read : Source.nextToken text pos stop = some token) (walk : Walk)
    (shallow : Bool) :
    PairedStep offsets At (walk.atToken dialect text ⟨stop, shallow⟩ token)
      ({ walk with pos := place }.atToken dialect other ⟨otherStop, shallow⟩
        (offsets.token token)) := by
  have next := lockstep.afterToken here read
  have arguments := lockstep.skipArguments here read
  unfold Walk.atToken
  simp only [Offsets.token_kind, Offsets.token_value, Offsets.token_stop,
    Offsets.isQualifier_token, Offsets.isModifier_token, Offsets.isKeyword_token]
  refine .ite (fun marker => ?_) fun _ => .ite (fun modifier => ?_) fun _ =>
    .ite (fun _ => lockstep.atKeyword next walk shallow) fun _ =>
      .ite (fun _ => .move (lockstep.skipGroup next .curly) _ _ _) fun _ => .move next _ _ _
  · exact .move (arguments (.inl (by simpa using marker))) _ _ _
  · exact .move (arguments (.inr modifier)) _ _ _

/-- Walks in lockstep find the same headers, and readers may stand behind each of them. -/
theorem headers (lockstep : Lockstep dialect text stop other otherStop offsets At)
    (shallow : Bool) {walk : Walk} (here : At walk.pos place) :
    { walk with pos := place }.headers dialect other ⟨otherStop, shallow⟩ =
        (walk.headers dialect text ⟨stop, shallow⟩).map offsets.header ∧
      ∀ header ∈ walk.headers dialect text ⟨stop, shallow⟩,
        At header.stop (offsets.stop header.stop) := by
  induction walk using Walk.headers.induct dialect text ⟨stop, shallow⟩ generalizing place with
  | case1 walk ended =>
      have same := lockstep.nextToken here
      dsimp only at ended
      rw [ended] at same
      rw [Walk.headers_of_none same, Walk.headers_of_none ended]
      exact ⟨rfl, fun _ member => by cases member⟩
  | case2 walk token read found =>
      rename_i ih
      have same := lockstep.nextToken here
      dsimp only at read
      rw [read] at same
      have step := lockstep.atToken here read walk shallow
      obtain ⟨later, behind⟩ := ih step.there
      rw [← step.same] at later
      have headers : walk.headers dialect text ⟨stop, shallow⟩ = _ := Walk.headers_of_some read
      rw [headers, Walk.headers_of_some same, step.found, List.map_append, ← later,
        Option.toList_map]
      refine ⟨rfl, fun header member => ?_⟩
      rcases List.mem_append.mp member with first | more
      · exact step.behind header (Option.mem_toList.mp first)
      · exact behind header more

end Lockstep

end DartBindings.Declaration

import DartBindings.Binding
import DartBindings.Proofs.Declaration.Names
import Mathlib.Data.List.Nodup

/-!
The targets of a library: under which names its proxies reach the native members. No two members
of a library that is made from two texts share one.
-/

set_option autoImplicit false

namespace DartBindings

open Source Bridge Dart Declaration

theorem target_injective {first second : String} {one other : Callable}
    (undivided : Undivided first) (name : Undivided one.name)
    (same : target first one = target second other) : first = second ∧ one.name = other.name := by
  have chars := congrArg String.toList same
  simp only [target, String.toList_append, List.append_assoc] at chars
  obtain ⟨before, -, after⟩ := (List.append_cons_inj_of_notMem undivided name).mp chars
  exact ⟨String.toList_injective before, String.toList_injective after⟩

/-- The targets of all members of these entities, in order. -/
def targets (entities : List Entity) : List String :=
  entities.flatMap fun entity => entity.callables.map (target entity.name)

theorem nodup_targets {entities : List Entity} (all : AllBridgeable entities) :
    (targets entities).Nodup := by
  have own (entity : Entity) (member : entity ∈ entities) (callable : Callable)
      (among : callable ∈ entity.callables) : Undivided callable.name :=
    (all.each entity member).names callable.name (List.mem_map.mpr ⟨callable, among, rfl⟩)
  refine List.nodup_flatMap.mpr ⟨?_, ?_⟩
  · intro entity member
    have bridgeable := all.each entity member
    have names : (entity.callables.map (·.name)).Nodup := bridgeable.distinct
    refine List.Nodup.map_on ?_ names.of_map
    intro one first other second same
    have equal := (target_injective bridgeable.name (own entity member one first) same).2
    exact List.inj_on_of_nodup_map names first second equal
  · have apart := List.pairwise_map.mp all.distinct
    refine apart.imp_of_mem ?_
    intro first second member _ different target shared other
    obtain ⟨one, among, rfl⟩ := List.mem_map.mp shared
    obtain ⟨two, _, same⟩ := List.mem_map.mp other
    have undivided := own first member one among
    exact different (target_injective (all.each first member).name undivided same.symm).1

/-- The library that is made from two texts without quoted names has a proxy with a member for
each of its entities. No two proxies have one name, nor two members of a proxy, and no two
members of the library have one target. -/
theorem bind_distinct {kotlin swift : List Char} (plain : backtick ∉ kotlin ∧ backtick ∉ swift)
    {android ios : List Entity} (first : (extract .kotlin kotlin none).result = .ok android)
    (second : (extract .swift swift none).result = .ok ios) :
    ∃ binding, bind kotlin swift = .ok binding ∧
      binding.code = library defaultConventions defaultChannel binding.entities ∧
      (∀ entity ∈ binding.entities, entity.callables ≠ []) ∧
      (binding.entities.map (·.name)).Nodup ∧
      (∀ entity ∈ binding.entities, entity.callableNames.Nodup) ∧
      (targets binding.entities).Nodup := by
  have each : ∀ entity ∈ android ++ ios, Bridgeable entity := by
    intro entity member
    rcases List.mem_append.mp member with one | other
    · exact extract_bridgeable plain.1 first entity one
    · exact extract_bridgeable plain.2 second entity other
  have all := allBridgeable_merge each
  refine ⟨⟨(merge android ios).1,
    (extract .kotlin kotlin none).warnings ++ (extract .swift swift none).warnings,
    (merge android ios).2, library defaultConventions defaultChannel (merge android ios).1⟩,
    ?_, rfl, fun entity member => (all.each entity member).nonempty, all.distinct,
    fun entity member => (all.each entity member).distinct, nodup_targets all⟩
  simp only [bind, first, second]
  rfl

/-- A class in two parts, with overloads. -/
def kotlinTimer : List Char :=
  "@NativeBridge class Timer \x7b fun stop() \x7b\x7d fun stop(at: Int) \x7b\x7d \x7d
   class Timer \x7b @NativeFunction fun stop(now: Boolean) \x7b\x7d \x7d".toList

/-- A stream whose name leaves out the ending, and a call of the name that is left. -/
def swiftTimer : List Char :=
  "@objcMembers class Timer \x7b func tickWithSink(sink: EventSink) \x7b\x7d
   func tick() \x7b\x7d \x7d".toList

theorem bind_timers_distinct :
    (backtick ∉ kotlinTimer ∧ backtick ∉ swiftTimer) ∧
    (extract .kotlin kotlinTimer none).result =
      .ok [⟨"Timer", [⟨.call, "stop", "Unit", []⟩], .android⟩,
        ⟨"Timer", [⟨.call, "stop", "Unit", [⟨"now", "Boolean"⟩]⟩], .android⟩] ∧
    (extract .swift swiftTimer none).result =
      .ok [⟨"Timer", [⟨.subscription, "tick", "Void", []⟩], .ios⟩] ∧
    ∃ binding, bind kotlinTimer swiftTimer = .ok binding ∧
      (∀ entity ∈ binding.entities, entity.callables ≠ []) ∧
      (binding.entities.map (·.name)).Nodup ∧
      (∀ entity ∈ binding.entities, entity.callableNames.Nodup) ∧
      (targets binding.entities).Nodup := by
  have plain : backtick ∉ kotlinTimer ∧ backtick ∉ swiftTimer := by decide +kernel
  have first : (extract .kotlin kotlinTimer none).result =
      .ok [⟨"Timer", [⟨.call, "stop", "Unit", []⟩], .android⟩,
        ⟨"Timer", [⟨.call, "stop", "Unit", [⟨"now", "Boolean"⟩]⟩], .android⟩] := by
    decide +kernel
  have second : (extract .swift swiftTimer none).result =
      .ok [⟨"Timer", [⟨.subscription, "tick", "Void", []⟩], .ios⟩] := by
    decide +kernel
  obtain ⟨binding, bound, -, distinct⟩ := bind_distinct plain first second
  exact ⟨plain, first, second, binding, bound, distinct⟩

end DartBindings

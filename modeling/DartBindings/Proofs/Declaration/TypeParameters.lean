import DartBindings.Proofs.Declaration.Loose
import DartBindings.Proofs.Declaration.QuotedMember

/-!
Type parameters of members. A walk that comes to a list of them skips it as a group between
angles, and the angle of an arrow ends that group. So a list without function types is passed
whole, and of any other one something is left, in which no member is found, not even the one that
the list belongs to.
-/

set_option autoImplicit false

namespace DartBindings.Declaration

open Text Source Bridge

/-! ## Function types -/

mutual

/-- A function type occurs in the type. -/
def TypeTree.hasFunction : TypeTree → Bool
  | .name _ => false
  | .generic _ arguments => haveFunction arguments
  | .list element => element.hasFunction
  | .dictionary key value => key.hasFunction || value.hasFunction
  | .function _ _ => true
  | .optional type => type.hasFunction

def TypeTree.haveFunction : List TypeTree → Bool
  | [] => false
  | type :: types => type.hasFunction || haveFunction types

end

theorem TypeTree.haveFunction_eq_any (types : List TypeTree) :
    TypeTree.haveFunction types = types.any TypeTree.hasFunction := by
  induction types with
  | nil => rfl
  | cons type types ih => rw [TypeTree.haveFunction, ih, List.any_cons]

/-- The arrows of a type are those of function types. -/
theorem TypeTree.WellNamed.mem_dash_iff {type : TypeTree} (named : type.WellNamed) :
    '-' ∈ type.spelling ↔ type.hasFunction = true := by
  have word {word : List Char} (named : IsWord word) : '-' ∉ word := fun among =>
    absurd (named.chars _ among) (by decide)
  induction named with
  | name named => simpa [TypeTree.spelling, TypeTree.hasFunction] using word named
  | @generic _ arguments named _ ih =>
      have inner : '-' ∈ listed ',' (arguments.map TypeTree.spelling) ↔
          ∃ type ∈ arguments, type.hasFunction = true := by
        rw [mem_listed_iff (by decide) (by decide)]
        simp only [List.mem_map, exists_exists_and_eq_and]
        exact exists_congr fun type => and_congr_right (ih type)
      simp [TypeTree.spelling, TypeTree.spellings_eq_map, TypeTree.hasFunction,
        TypeTree.haveFunction_eq_any, word named, inner]
  | list _ ih => simpa [TypeTree.spelling, TypeTree.hasFunction] using ih
  | dictionary _ _ key value =>
      simp [TypeTree.spelling, TypeTree.hasFunction, mem_listed_iff, key, value]
  | function => simp [TypeTree.spelling, TypeTree.hasFunction]
  | optional _ ih => simpa [TypeTree.spelling, TypeTree.hasFunction] using ih

/-! ## Lists of type parameters -/

/-- A type parameter, with the type that bounds it if there is one. -/
structure TypeParameter where
  name : String
  bound : Option TypeTree
  deriving Repr

def TypeParameter.spelling (parameter : TypeParameter) : List Char :=
  parameter.name.toList ++
    match parameter.bound with
    | none => []
    | some type => ' ' :: ':' :: ' ' :: type.spelling

/-- The name and the bound are written with words only. -/
structure TypeParameter.Spelled (parameter : TypeParameter) : Prop where
  name : IsWord parameter.name.toList
  bound : ∀ type ∈ parameter.bound, type.WellNamed

/-- The parameters as they stand between the angles. -/
def typeList (parameters : List TypeParameter) : List Char :=
  listed ',' (parameters.map TypeParameter.spelling)

section Lists

variable {parameter : TypeParameter} {parameters : List TypeParameter}

theorem TypeParameter.Spelled.nested (spelled : parameter.Spelled) :
    Nested true parameter.spelling := by
  refine (Nested.word spelled.name.chars).append ?_
  cases bound : parameter.bound with
  | none => exact .nil
  | some type =>
      have colon : Nested true [' ', ':', ' '] :=
        .append .blank (.append (.separator (.inr rfl)) .blank)
      exact colon.append (spelled.bound type bound).nested.within

theorem TypeParameter.Spelled.loose (spelled : parameter.Spelled) :
    Source.Loose parameter.spelling := by
  have name : Source.Loose parameter.name.toList := (tight_word spelled.name.chars).loose
  unfold TypeParameter.spelling
  cases bound : parameter.bound with
  | none => exact name.append List.IsChain.nil startsPlain_nil
  | some type =>
      have type := (spelled.bound type bound).tight.loose
      have colon := loose_cons (c := ':') (loose_cons (c := ' ') type nofun) nofun
      exact name.append (loose_cons (c := ' ') colon nofun)
        (startsPlain_cons.mpr ⟨by decide, fun _ => startsPlain_cons.mpr ⟨by decide, nofun⟩⟩)

theorem nested_typeList (spelled : ∀ parameter ∈ parameters, parameter.Spelled) :
    Nested true (typeList parameters) :=
  nested_listed (by decide) (List.forall_mem_map.mpr fun parameter among =>
    (spelled parameter among).nested)

theorem loose_typeList (spelled : ∀ parameter ∈ parameters, parameter.Spelled) :
    Source.Loose (typeList parameters) :=
  loose_listed (List.forall_mem_map.mpr fun parameter among => (spelled parameter among).loose)

/-- There is an arrow in a list exactly if there is a function type in a bound. -/
theorem mem_dash_typeList_iff (spelled : ∀ parameter ∈ parameters, parameter.Spelled) :
    '-' ∈ typeList parameters ↔
      ∃ parameter ∈ parameters, ∃ type ∈ parameter.bound, type.hasFunction = true := by
  rw [typeList, mem_listed_iff (by decide) (by decide)]
  simp only [List.mem_map, exists_exists_and_eq_and]
  refine exists_congr fun parameter => and_congr_right fun among => ?_
  have name : '-' ∉ parameter.name.toList := fun inside =>
    absurd ((spelled parameter among).name.chars _ inside) (by decide)
  unfold TypeParameter.spelling
  cases bound : parameter.bound with
  | none => simpa using name
  | some type => simp [name, ((spelled parameter among).bound type bound).mem_dash_iff]

end Lists

/-! ## Generic members -/

/-- The member with type parameters before its name. -/
def MemberText.generic (parameters : List TypeParameter) (member : MemberText) : MemberText :=
  member.renamed
    (String.ofList ('<' :: (typeList parameters ++ '>' :: ' ' :: member.name.toList)))

section Generic

variable {dialect : Dialect} {text after rest : List Char} {extent : Extent} {pos stop : Nat}
  {member : MemberText} {parameters : List TypeParameter} {layout : Layout}

theorem MemberText.spelling_generic (dialect : Dialect) (layout : Layout)
    (parameters : List TypeParameter) (member : MemberText) :
    (member.generic parameters).spelling dialect layout =
      member.lead dialect layout ++ '<' :: (typeList parameters ++ '>' :: ' ' ::
        (member.name.toList ++ (member.tail dialect layout ++ emptyBody))) := by
  have lead : (member.generic parameters).lead dialect layout = member.lead dialect layout := rfl
  have tail : (member.generic parameters).tail dialect layout = member.tail dialect layout := rfl
  have name : (member.generic parameters).name.toList =
      '<' :: (typeList parameters ++ '>' :: ' ' :: member.name.toList) := String.toList_ofList
  rw [MemberText.spelling_eq, lead, tail, name]
  simp

/-! ## Lists that are passed whole -/

/-- Without an arrow the list ends at its own angle, and the name after it is read. -/
theorem nameToken_typeList {n : Nat} (spelled : ∀ parameter ∈ parameters, parameter.Spelled)
    (plain : '-' ∉ typeList parameters) (named : IsWord member.name.toList) (ends : EndsWord after)
    (read : nextToken text pos stop = some ⟨.symbol, "<", n, n + 1⟩)
    (window : Window text stop (n + 1) (typeList parameters ++ '>' :: ' ' ::
      (member.name.toList ++ after))) :
    ∃ name, Window text stop name (member.name.toList ++ after) ∧
      (nameToken text pos stop).2 =
        some ⟨.word, member.name, name, name + member.name.length⟩ := by
  have closed := window.of_append (typeList parameters)
  have skipped : skipGroup text (n + 1) stop '<' '>' =
      n + 1 + (typeList parameters).length + 1 := by
    obtain ⟨⟨tail, here⟩, size⟩ := window
    rw [List.append_assoc] at here
    simp only [List.length_append, List.length_cons] at size
    simp only [skipGroup, findClosing, here, List.cons_append,
      (nested_typeList spelled).closingIndex_group .angle fun _ => plain]
    omega
  have name := nextToken_name named ends closed.tail.tail
  rw [← nextToken_blank (by decide) closed.tail] at name
  refine ⟨_, closed.tail.tail, ?_⟩
  simp [nameToken, read, skipped, name]

/-- Type parameters without a function type make no difference to the header of a member. -/
theorem Walk.headers_generic (regular : dialect.Regular) (own : member.Canonical dialect)
    (spelled : ∀ parameter ∈ parameters, parameter.Spelled) (plain : '-' ∉ typeList parameters)
    (window : Window text extent.stop pos
      ((member.generic parameters).spelling dialect layout ++ after)) :
    ∃ start signature next found,
      Window text extent.stop signature (member.tail dialect layout ++ (emptyBody ++ after)) ∧
      Window text extent.stop next after ∧
      (∀ header ∈ found, Harmless text extent.stop after header) ∧
      (Walk.start pos).headers dialect text extent =
        member.header dialect start signature ::
          (found ++ (Walk.start next).headers dialect text extent) := by
  simp only [MemberText.spelling_generic, List.append_assoc, List.cons_append] at window
  obtain ⟨walk, keyword, angle, skip, value, markers, modifiers, walked⟩ :=
    Walk.headers_beforeName regular own.modifiers window
  have ends : EndsWord (member.tail dialect layout ++ (emptyBody ++ after)) :=
    endsWord_cons (by decide) _
  have read := skip.trans (nextToken_single (by decide) (by decide) (by decide) angle)
  obtain ⟨name, line, named⟩ := nameToken_typeList spelled plain own.name.word ends read angle.tail
  have signature := line.of_append member.name.toList
  rw [String.length_toList] at signature
  have noClass : keyword.value ≠ classKeyword := value ▸ regular.apart
  obtain ⟨found, next, beyond, harmless, rest⟩ :=
    @Walk.headers_of_passing dialect _ _ _ _ _ ⟨signature, own.isPassage layout⟩ [] [] false
  refine ⟨keyword.start, _, next, found, signature, beyond, harmless, ?_⟩
  rw [walked, Walk.atKeyword_of_word named rfl noClass walk, isQualifier_word own.name.word, rest,
    value, markers, modifiers]
  rfl

/-! ## Lists that are left early -/

/-- The line of a member from the blank before its name on. -/
def MemberText.signatureLine (dialect : Dialect) (layout : Layout) (member : MemberText)
    (after : List Char) : List Char :=
  ' ' :: (member.name.toList ++ (member.tail dialect layout ++ (emptyBody ++ after)))

theorem skipArguments_of_round (window : Window text stop pos ('(' :: rest)) :
    skipArguments text pos stop = skipGroup text (pos + 1) stop '(' ')' := by
  obtain ⟨⟨tail, here⟩, size⟩ := window
  rw [List.length_cons] at size
  have inside : pos < stop := by omega
  have next : text[pos]? = some '(' := by
    rw [← List.head?_drop, here]
    rfl
  simp [skipArguments, inside, next]

/-- A walk that comes to the name of a member after something else than its keyword finds
nothing there that counts, even if it takes the name for a modifier. -/
theorem Walk.headers_signatureLine (own : member.Canonical dialect)
    (known : dialect.memberKeyword ∈ declarationWords)
    (window : Window text extent.stop pos (member.signatureLine dialect layout after)) :
    ∃ found next, Window text extent.stop next after ∧
      (∀ header ∈ found, Harmless text extent.stop after header) ∧
      (Walk.start pos).headers dialect text extent =
        found ++ (Walk.start next).headers dialect text extent := by
  have named := own.name.word
  have ends : EndsWord (member.tail dialect layout ++ (emptyBody ++ after)) :=
    endsWord_cons (by decide) _
  have read := nextToken_name named ends window.tail
  have signature := window.tail.of_append member.name.toList
  rw [String.length_toList] at signature
  have passing : Passing text extent.stop after (member.tail dialect layout) _ :=
    ⟨signature, own.isPassage layout⟩
  have noClass : member.name ≠ classKeyword := fun same => own.name.free (same ▸ by decide)
  have noKeyword : member.name ≠ dialect.memberKeyword := fun same => own.name.free (same ▸ known)
  have noBrace : member.name ≠ "\x7b" := ne_of_isWord named (c := '\x7b') (by decide) (by decide)
  rw [Walk.start, Walk.headers_blank (by decide) window, Walk.headers_of_some read]
  by_cases modifier : member.name ∈ dialect.modifiers
  · have inner : Passing text extent.stop after (member.list ++ ')' ::
        dialect.returns.spelling layout member.result) _ := passing.of_append ['(']
    have ended := passing.passage.groups .round [] _ rfl
    obtain ⟨further, beyond, -⟩ := skipGroup_of_passing inner ended
    rw [List.length_singleton, ← skipArguments_of_round signature] at beyond
    simpa [Walk.atToken, Dialect.isModifier, modifier, isQualifier_word named] using
      @Walk.headers_of_passing dialect _ _ _ _ _ beyond [] [member.name] false
  · simpa [Walk.atToken, Dialect.isModifier, Dialect.isKeyword, modifier, noClass, noKeyword,
      noBrace, isQualifier_word named] using
      @Walk.headers_of_passing dialect _ _ _ _ _ passing [] [] false

/-- The search for a class body that comes to the line of a member finds the empty one there. -/
theorem opening_signatureLine (own : member.Canonical dialect)
    (window : Window text text.length pos (member.signatureLine dialect layout after)) :
    (opening text pos).body = none ∨
      ∃ start, (opening text pos).body = some start ∧
        Window text text.length start ('\x7d' :: after) := by
  have named := own.name.word
  have ends : EndsWord (member.tail dialect layout ++ (emptyBody ++ after)) :=
    endsWord_cons (by decide) _
  have read := nextToken_name named ends window.tail
  rw [← nextToken_blank (by decide) window] at read
  have signature := window.tail.of_append member.name.toList
  rw [String.length_toList] at signature
  have noBrace : member.name ≠ "\x7b" := ne_of_isWord named (c := '\x7b') (by decide) (by decide)
  have noRound : member.name ≠ "(" := ne_of_isWord named (c := '(') (by decide) (by decide)
  have noAngle : member.name ≠ "<" := ne_of_isWord named (c := '<') (by decide) (by decide)
  rcases opening_body_of_some read noBrace with none | same
  · exact .inl none
  · simp only [afterHeaderToken, beq_eq_false_iff_ne.mpr noRound, beq_eq_false_iff_ne.mpr noAngle,
      Bool.false_eq_true, ↓reduceIte] at same
    rw [same]
    exact opening_of_passing ⟨signature, own.isPassage layout⟩

/-- The rest of a list as a course. The angle that closes the list ends the course. -/
def crossing (text : List Char) (stop : Nat) (after : List Char) : Course text stop where
  Here size pos := ∃ rest, rest.length = size ∧ Crossing text stop after rest pos
  Apart pos := ∃ rest, Crossing text stop after rest pos ∧ StartsPlain rest
  Last token := ∃ n, token = ⟨.symbol, ">", n, n + 1⟩ ∧ Window text stop (n + 1) after
  read := by
    rintro _ pos ⟨rest, rfl, crossing⟩
    rcases crossing.read with ⟨n, read, line⟩ | ⟨token, next, read, crossed, later, shorter⟩
    · exact ⟨_, read, .inl ⟨n, rfl, line⟩⟩
    · refine ⟨token, read, .inr (onCourse_of_crossed crossed later.window shorter ?_ ?_)⟩
      · exact fun n inside => ⟨next.drop n, List.length_drop, later.drop inside⟩
      · exact fun plain => ⟨next, later, plain⟩
  symbol := by
    rintro _ ⟨n, rfl, -⟩
    exact ⟨rfl, by simp⟩
  noArguments := by
    rintro pos ⟨rest, crossing, plain⟩
    exact skipArguments_of_startsPlain plain (by decide) crossing.window

/-- What a walk takes for a header in the rest of a list is not exposed. -/
theorem callable?_of_apart {header : Header}
    (apart : (crossing text stop after).Apart header.stop) (dialect : Dialect) (marked : Bool) :
    dialect.callable? text marked stop header = .ok none := by
  obtain ⟨rest, crossing, plain⟩ := apart
  obtain ⟨token, read, value⟩ := crossing.read_ne_parenthesis plain
  exact callable?_of_read read value dialect marked

theorem barren_of_apart (own : member.Canonical dialect) {header : Header}
    (apart : (crossing text stop (member.signatureLine dialect layout after)).Apart header.stop) :
    Barren text stop header := by
  right
  rintro rfl other file
  obtain ⟨rest, course, -⟩ := apart
  apply entity?_of_opening
  rcases opening_of_course (crossing text text.length _) ⟨rest, rfl, course⟩ with
    none | ⟨next, _, read, ⟨n, rfl, line⟩, same⟩
  · exact .inl none
  · rw [same]
    rcases opening_body_of_some read (by simp) with none | further
    · exact .inl none
    · rw [further]
      exact opening_signatureLine own line

theorem Walk.headers_closingAngle {walk : Walk} {n : Nat}
    (read : nextToken text walk.pos extent.stop = some ⟨.symbol, ">", n, n + 1⟩) :
    walk.headers dialect text extent = (Walk.start (n + 1)).headers dialect text extent := by
  rw [Walk.headers_of_some read]
  simp [Walk.atToken, Dialect.isModifier, Dialect.isKeyword, isQualifier, Walk.start]

/-- A list with an arrow is left before the angle that closes it. -/
theorem nameToken_crossing {n : Nat} (spelled : ∀ parameter ∈ parameters, parameter.Spelled)
    (arrow : '-' ∈ typeList parameters)
    (read : nextToken text pos stop = some ⟨.symbol, "<", n, n + 1⟩)
    (window : Window text stop (n + 1) (typeList parameters ++ '>' :: after)) :
    ∃ size, (crossing text stop after).Here size (nameToken text pos stop).1 := by
  have nested := nested_typeList spelled
  have ends : EndsGroup '<' '>' 1 (typeList parameters ++ []) :=
    nested.endsGroup_arrow arrow endsGroup_nil
  rw [List.append_nil] at ends
  obtain ⟨k, inside, skipped⟩ := skipGroup_of_endsGroup window ends
  have whole : Crossing text stop after (typeList parameters) (n + 1) :=
    ⟨window, nested.chars, loose_typeList spelled, nested.groupsEnd, nested.getLast?_ne_dash⟩
  refine ⟨_, (typeList parameters).drop (k + 1), rfl, ?_⟩
  simpa [nameToken, read, skipped] using whole.drop inside

/-- A member with a function type in the bound of a type parameter is lost. -/
theorem Walk.headers_lost (regular : dialect.Regular) (own : member.Canonical dialect)
    (known : dialect.memberKeyword ∈ declarationWords)
    (spelled : ∀ parameter ∈ parameters, parameter.Spelled) (arrow : '-' ∈ typeList parameters)
    (window : Window text extent.stop pos
      ((member.generic parameters).spelling dialect layout ++ after)) :
    ∃ found next, Window text extent.stop next after ∧
      (∀ header ∈ found, Barren text extent.stop header ∧
        ∀ marked, dialect.callable? text marked extent.stop header = .ok none) ∧
      (Walk.start pos).headers dialect text extent =
        found ++ (Walk.start next).headers dialect text extent := by
  simp only [MemberText.spelling_generic, List.append_assoc, List.cons_append] at window
  obtain ⟨walk, keyword, angle, skip, -, -, -, walked⟩ :=
    Walk.headers_beforeName regular own.modifiers window
  have read := skip.trans (nextToken_single (by decide) (by decide) (by decide) angle)
  let course := crossing text extent.stop (member.signatureLine dialect layout after)
  obtain ⟨size, here⟩ := nameToken_crossing spelled arrow read angle.tail
  obtain ⟨others, stopped, _, readAngle, ⟨n, rfl, line⟩, apart, toAngle⟩ :=
    @Walk.atKeyword_headers_of_course dialect _ _ _ course _ here walk
  obtain ⟨found, last, beyond, harmless, toEnd⟩ := Walk.headers_signatureLine own known line
  refine ⟨others ++ found, last, beyond, ?_, ?_⟩
  · rw [List.forall_mem_append]
    exact ⟨fun header among => ⟨barren_of_apart own (apart header among),
        callable?_of_apart (apart header among) dialect⟩,
      fun header among => ⟨Ignored.barren (.inr ⟨_, harmless header among⟩),
        (harmless header among).callable? dialect⟩⟩
  · rw [walked, toAngle, Walk.headers_closingAngle readAngle, toEnd, List.append_assoc]

end Generic

end DartBindings.Declaration

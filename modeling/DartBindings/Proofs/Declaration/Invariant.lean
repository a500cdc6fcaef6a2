import DartBindings.Proofs.Declaration.Names
import DartBindings.Proofs.Declaration.Overloads
import DartBindings.Proofs.Declaration.Readable

/-!
What holds of every extraction that succeeds, however little the text looks like declarations. The
entities are well formed, and the reports are those of the classes that may be exposed, class by
class: one if the body is never closed, and one for each member with the name of an earlier one.
-/

set_option autoImplicit false

namespace DartBindings.Declaration

open Text Source Bridge

/-- What an entity of a dialect is made of. -/
structure WellFormed (dialect : Dialect) (entity : Entity) : Prop where
  origin : entity.origin = dialect.origin
  nonempty : entity.callables ≠ []
  distinct : entity.callableNames.Nodup
  named : ∀ callable ∈ entity.callables, ∀ parameter ∈ callable.parameters, parameter.name ≠ ""
  noSink : ∀ callable ∈ entity.callables, ∀ parameter ∈ callable.parameters,
    isSink parameter = false
  ending : ∀ ending ∈ dialect.exemptEndings, ¬ ending.toList <:+ entity.name.toList

/-! ## Reports -/

/-- The names that the list has before already, each as often as it comes again. -/
def repeated (names : List String) : List String :=
  (names.zipIdx.filter fun entry => (names.take entry.2).contains entry.1).map (·.1)

/-- Where the body of a class starts, if the class has one and may be exposed. -/
def exposedBody? (dialect : Dialect) (text : List Char) (header : Header) : Option Nat :=
  if header.keyword = classKeyword ∧
      dialect.exposes header.name (opening text header.stop).words = true then
    (opening text header.stop).body
  else none

/-- The callable that a header of a class body may be exposed as. -/
def exposed? (dialect : Dialect) (text : List Char) (marked : Bool) (stop : Nat)
    (header : Header) : Option Callable :=
  if header.keyword = dialect.memberKeyword then
    (dialect.callable? text marked stop header).toOption.join
  else none

/-- The callables that the members of a class may be exposed as, whatever their names are. -/
def exposable (dialect : Dialect) (text : List Char) (header : Header) (start : Nat) :
    List Callable :=
  (headers dialect text start (bodyEnd text start) true).filterMap
    (exposed? dialect text (header.markers.contains dialect.classMarker) (bodyEnd text start))

def bodyReports (text : List Char) (file : Option RawText) (className : String) (start : Nat) :
    List Warning :=
  match findClosing text start '\x7b' '\x7d' with
  | .ok _ => []
  | .error _ => [.unclosedBody file className]

def classReports (dialect : Dialect) (text : List Char) (file : Option RawText)
    (header : Header) : List Warning :=
  match exposedBody? dialect text header with
  | none => []
  | some start =>
    bodyReports text file header.name start ++
      (repeated ((exposable dialect text header start).map (·.name))).map
        (.duplicateMember header.name)

/-- What is to be reported of a text. -/
def reports (dialect : Dialect) (text : List Char) (file : Option RawText) : List Warning :=
  (headers dialect text 0 text.length false).flatMap (classReports dialect text file)

/-! ## Callables of one name -/

theorem repeated_concat (names : List String) (name : String) :
    repeated (names ++ [name]) = repeated names ++ if name ∈ names then [name] else [] := by
  have same : names.zipIdx.filter (fun entry => ((names ++ [name]).take entry.2).contains entry.1) =
      names.zipIdx.filter (fun entry => (names.take entry.2).contains entry.1) := by
    apply List.filter_congr
    intro entry member
    have inside := (List.mem_zipIdx' member).1
    rw [List.take_append_of_le_length inside.le]
  unfold repeated
  rw [List.zipIdx_append, List.filter_append, same, List.map_append]
  congr 1
  by_cases known : name ∈ names <;> simp [known]

example : repeated ["f", "g", "f", "h", "f"] = ["f", "f"] := by decide

theorem map_name_dropped (callables : List Callable) :
    (dropped [] callables).map (·.name) = repeated (callables.map (·.name)) := by
  induction callables using List.reverseRecOn with
  | nil => rfl
  | append_singleton first callable ih =>
      rw [(kept_append [] first [callable]).2, List.map_append, ih, List.map_append,
        List.map_singleton, repeated_concat, List.append_nil]
      congr 1
      by_cases known : callable.name ∈ first.map (·.name) <;> simp [dropped, known]

/-- No name is kept twice, and none that is taken. -/
theorem nodup_kept (taken : List String) (callables : List Callable) :
    ((kept taken callables).map (·.name)).Nodup ∧
      ∀ callable ∈ kept taken callables, callable.name ∉ taken := by
  induction callables generalizing taken with
  | nil => exact ⟨List.nodup_nil, nofun⟩
  | cons callable rest ih =>
      rw [kept]
      split
      · exact ih taken
      · rename_i fresh
        obtain ⟨distinct, apart⟩ := ih (callable.name :: taken)
        constructor
        · rw [List.map_cons, List.nodup_cons]
          refine ⟨?_, distinct⟩
          intro again
          obtain ⟨other, member, same⟩ := List.mem_map.mp again
          exact apart other member (same ▸ List.mem_cons_self)
        · intro other member
          cases List.mem_cons.mp member with
          | inl same => exact same ▸ fresh
          | inr later => exact fun among => apart other later (List.mem_cons_of_mem _ among)

/-! ## Parameters -/

theorem mem_of_mapM_ok {α β : Type} {read : α → Except ReadError β} {items : List α}
    {values : List β} (result : items.mapM read = .ok values) {value : β}
    (member : value ∈ values) : ∃ item ∈ items, read item = .ok value := by
  induction items generalizing values with
  | nil =>
      cases result
      cases member
  | cons item items ih =>
      rw [List.mapM_cons] at result
      cases first : read item with
      | error cause =>
          rw [first] at result
          cases result
      | ok own =>
          rw [first] at result
          cases rest : items.mapM read with
          | error cause =>
              rw [rest] at result
              cases result
          | ok others =>
              rw [rest] at result
              cases result
              cases List.mem_cons.mp member with
              | inl same => exact ⟨item, List.mem_cons_self, same ▸ first⟩
              | inr later =>
                  obtain ⟨other, among, found⟩ := ih rest later
                  exact ⟨other, List.mem_cons_of_mem item among, found⟩

theorem parameter?_named {piece : List Char} {parameter : Parameter}
    (read : parameter? piece = .ok (some parameter)) : parameter.name ≠ "" := by
  unfold parameter? at read
  split at read
  · cases read
  · split at read
    · cases read
    · dsimp only at read
      split at read
      · cases read
      · rename_i nonempty
        cases read
        simpa using nonempty

theorem parameters_named {text : List Char} {found : List Parameter}
    (read : parameters text = .ok found) : ∀ parameter ∈ found, parameter.name ≠ "" := by
  intro parameter member
  unfold parameters at read
  cases pieces : (splitTopLevel [','] (stripComments text)).mapM parameter? with
  | error cause =>
      rw [pieces] at read
      cases read
  | ok values =>
      rw [pieces] at read
      cases read
      obtain ⟨value, among, same⟩ := List.mem_filterMap.mp member
      cases same
      obtain ⟨piece, -, own⟩ := mem_of_mapM_ok pieces among
      exact parameter?_named own

section Member

variable {dialect : Dialect} {text : List Char} {marked : Bool} {stop : Nat}

theorem Dialect.signature?_named {pos : Nat} {signature : Signature}
    (read : dialect.signature? text pos stop = .ok (some signature)) :
    ∀ parameter ∈ signature.parameters, parameter.name ≠ "" := by
  unfold Dialect.signature? at read
  split at read
  · cases read
  · split at read
    · cases read
    · split at read
      · cases read
      · rename_i body _
        cases found : parameters body with
        | error cause =>
            rw [found] at read
            cases read
        | ok values =>
            rw [found] at read
            cases stated : dialect.returns.read text _ stop with
            | error cause =>
                rw [stated] at read
                cases read
            | ok type =>
                rw [stated] at read
                cases read
                exact parameters_named found

theorem Dialect.expose_parameters {member : Header} {signature : Signature} {callable : Callable}
    (shown : dialect.expose marked member signature = some callable) :
    ∀ parameter ∈ callable.parameters,
      parameter ∈ signature.parameters ∧ isSink parameter = false := by
  unfold Dialect.expose at shown
  split at shown
  · cases shown
    intro parameter among
    obtain ⟨member, noSink⟩ := List.mem_filter.mp among
    exact ⟨member, by simpa using noSink⟩
  · rename_i noSink
    split at shown
    · cases shown
      intro parameter member
      refine ⟨member, ?_⟩
      cases sink : isSink parameter with
      | false => rfl
      | true => exact absurd (List.any_eq_true.mpr ⟨parameter, member, sink⟩) noSink
    · cases shown

theorem Dialect.callable?_parameters {member : Header} {callable : Callable}
    (exposed : dialect.callable? text marked stop member = .ok (some callable)) :
    ∀ parameter ∈ callable.parameters, parameter.name ≠ "" ∧ isSink parameter = false := by
  obtain ⟨signature, read, shown⟩ := Dialect.signature?_of_exposed exposed
  intro parameter among
  obtain ⟨inside, noSink⟩ := Dialect.expose_parameters shown parameter among
  exact ⟨Dialect.signature?_named read parameter inside, noSink⟩

/-- Where the members of a class can be read, they are exposed one by one. -/
theorem exposes_of_ok {className : String} {taken : List String} {members : List Header}
    {found : List Callable}
    (result : (callables dialect text className marked stop taken members).result = .ok found) :
    Exposes dialect text marked stop members
      (members.filterMap (exposed? dialect text marked stop)) := by
  induction members generalizing taken found with
  | nil => exact .nil
  | cons member rest ih =>
      rw [callables] at result
      by_cases keyword : member.keyword = dialect.memberKeyword
      · have same : (member.keyword != dialect.memberKeyword) = false := by simp [keyword]
        simp only [same, Bool.false_eq_true, ↓reduceIte] at result
        cases exposed : dialect.callable? text marked stop member with
        | error cause =>
            rw [exposed] at result
            cases result
        | ok callable =>
            have own : exposed? dialect text marked stop member = callable := by
              rw [exposed?, if_pos keyword, exposed]
              rfl
            rw [exposed] at result
            rw [List.filterMap_cons, own]
            cases callable with
            | none => exact .silent (.inr exposed) (ih result)
            | some callable =>
                dsimp only at result
                split at result
                · exact .exposed keyword exposed (ih result)
                · obtain ⟨others, later, -⟩ := Extraction.map_ok result
                  exact .exposed keyword exposed (ih later)
      · have other : (member.keyword != dialect.memberKeyword) = true := by simpa using keyword
        have own : exposed? dialect text marked stop member = none := by
          rw [exposed?, if_neg keyword]
        rw [other, if_pos rfl] at result
        rw [List.filterMap_cons, own]
        exact .silent (.inl keyword) (ih result)

theorem callables_of_ok {className : String} {members : List Header} {found : List Callable}
    (result : (callables dialect text className marked stop [] members).result = .ok found) :
    found = kept [] (members.filterMap (exposed? dialect text marked stop)) ∧
      (callables dialect text className marked stop [] members).warnings =
        (repeated ((members.filterMap (exposed? dialect text marked stop)).map (·.name))).map
          (.duplicateMember className) := by
  have whole := (exposes_of_ok result).callables_eq className []
  rw [whole] at result ⊢
  cases result
  rw [← map_name_dropped, List.map_map]
  exact ⟨rfl, rfl⟩

end Member

/-! ## Classes and texts -/

section Text

variable {dialect : Dialect} {text : List Char} {file : Option RawText}

theorem bodyStop_eq (text : List Char) (file : Option RawText) (className : String)
    (start : Nat) : bodyStop text file className start =
      ⟨bodyReports text file className start, .ok (bodyEnd text start)⟩ := by
  unfold bodyStop bodyReports bodyEnd
  cases findClosing text start '\x7b' '\x7d' <;> rfl

theorem not_isSuffix_of_exposes {name : String} {words : List String}
    (exposed : dialect.exposes name words = true) :
    ∀ ending ∈ dialect.exemptEndings, ¬ ending.toList <:+ name.toList := by
  intro ending member ends
  simp only [Dialect.exposes, Bool.and_eq_true, Bool.not_eq_true', List.any_eq_false] at exposed
  exact exposed.1 ending member (List.isSuffixOf_iff_suffix.mpr ends)

/-- The members that are kept make a well-formed entity. -/
theorem wellFormed_kept {name : String} {words : List String}
    (exposed : dialect.exposes name words = true) {marked : Bool} {stop : Nat}
    {members : List Header}
    (nonempty : kept [] (members.filterMap (exposed? dialect text marked stop)) ≠ []) :
    WellFormed dialect
      ⟨name, kept [] (members.filterMap (exposed? dialect text marked stop)), dialect.origin⟩ := by
  have parameters : ∀ callable ∈ kept [] (members.filterMap (exposed? dialect text marked stop)),
      ∀ parameter ∈ callable.parameters, parameter.name ≠ "" ∧ isSink parameter = false := by
    intro callable among
    obtain ⟨member, -, shown⟩ := List.mem_filterMap.mp (mem_of_mem_kept among)
    unfold exposed? at shown
    split at shown
    · cases read : dialect.callable? text marked stop member with
      | error cause =>
          rw [read] at shown
          cases shown
      | ok found =>
          rw [read] at shown
          obtain rfl : found = some callable := shown
          exact Dialect.callable?_parameters read
    · cases shown
  constructor
  case origin => rfl
  case nonempty => exact nonempty
  case distinct => exact (nodup_kept [] _).1
  case named => exact fun callable among parameter inside =>
    (parameters callable among parameter inside).1
  case noSink => exact fun callable among parameter inside =>
    (parameters callable among parameter inside).2
  case ending => exact not_isSuffix_of_exposes exposed

theorem entity?_of_ok {header : Header} (keyword : header.keyword = classKeyword)
    {found : Option Entity} (result : (entity? dialect text file header).result = .ok found) :
    (∀ entity ∈ found, WellFormed dialect entity) ∧
      (entity? dialect text file header).warnings = classReports dialect text file header := by
  unfold entity? at result ⊢
  unfold classReports exposedBody?
  dsimp only at result ⊢
  cases body : (opening text header.stop).body with
  | none =>
      rw [body] at result
      cases result
      rw [ite_self]
      exact ⟨nofun, rfl⟩
  | some start =>
      rw [body] at result
      cases exposed : dialect.exposes header.name (opening text header.stop).words with
      | false =>
          rw [exposed] at result
          cases result
          rw [if_neg (fun both => Bool.false_ne_true both.2)]
          exact ⟨nofun, rfl⟩
      | true =>
          rw [exposed] at result
          simp only [Bool.not_true, Bool.false_eq_true, ↓reduceIte, bodyStop_eq, keyword,
            and_self] at result ⊢
          obtain ⟨callables, read, same⟩ := Extraction.map_ok result
          obtain ⟨rfl, reported⟩ := callables_of_ok read
          constructor
          · intro entity member
            split at same
            · rw [← same] at member
              cases member
            · rename_i nonempty
              rw [← same] at member
              cases member
              exact wellFormed_kept exposed (by simpa using nonempty)
          · exact congrArg (bodyReports text file header.name start ++ ·) reported

theorem classReports_of_ne {header : Header} (keyword : header.keyword ≠ classKeyword) :
    classReports dialect text file header = [] := by
  unfold classReports exposedBody?
  rw [if_neg fun both => keyword both.1]

theorem entities_of_ok {classes : List Header} {found : List Entity}
    (result : (entities dialect text file classes).result = .ok found) :
    (∀ entity ∈ found, WellFormed dialect entity) ∧
      (entities dialect text file classes).warnings =
        classes.flatMap (classReports dialect text file) := by
  induction classes generalizing found with
  | nil =>
      cases result
      exact ⟨nofun, rfl⟩
  | cons header rest ih =>
      rw [entities] at result ⊢
      by_cases keyword : header.keyword = classKeyword
      · have same : (header.keyword != classKeyword) = false := by simp [keyword]
        simp only [same, Bool.false_eq_true, ↓reduceIte] at result ⊢
        obtain ⟨entity, first, inner⟩ := Extraction.andThen_ok result
        obtain ⟨others, later, rfl⟩ := Extraction.map_ok inner
        obtain ⟨own, ownReports⟩ := entity?_of_ok keyword first
        obtain ⟨wellFormed, laterReports⟩ := ih later
        constructor
        · intro other member
          cases List.mem_append.mp member with
          | inl here => exact own other (Option.mem_toList.mp here)
          | inr there => exact wellFormed other there
        · unfold Extraction.andThen
          rw [first, List.flatMap_cons, ← ownReports, ← laterReports]
          rfl
      · have other : (header.keyword != classKeyword) = true := by simpa using keyword
        rw [if_pos other] at result ⊢
        obtain ⟨wellFormed, laterReports⟩ := ih result
        refine ⟨wellFormed, ?_⟩
        rw [List.flatMap_cons, classReports_of_ne keyword, List.nil_append]
        exact laterReports

/-- An extraction that succeeds gives well-formed entities, in Swift none of a class that hosts the
application. Its reports are those of the text, and they come after all that were made before. -/
theorem extract_invariant {found : List Entity}
    (result : (extract dialect text file).result = .ok found) :
    (∀ entity ∈ found, WellFormed dialect entity) ∧
      (dialect = .swift → ∀ entity ∈ found,
        ¬ "AppDelegate".toList <:+ entity.name.toList ∧ ¬ "Plugin".toList <:+ entity.name.toList) ∧
      (extract dialect text file).warnings = reports dialect text file ∧
      ∀ (α : Type) (earlier : Extraction α) (value : α), earlier.result = .ok value →
        (earlier.andThen fun _ => extract dialect text file).warnings =
          earlier.warnings ++ reports dialect text file := by
  obtain ⟨wellFormed, reported⟩ := entities_of_ok result
  refine ⟨wellFormed, ?_, reported, ?_⟩
  · intro swift entity member
    have ending := (wellFormed entity member).ending
    rw [swift] at ending
    exact ⟨ending "AppDelegate" (by decide), ending "Plugin" (by decide)⟩
  · intro α earlier value found
    unfold Extraction.andThen
    rw [found]
    exact congrArg (earlier.warnings ++ ·) reported

end Text

/-- Two members of one name, the sink of a stream, and a body that is never closed. -/
theorem extract_invariant_unclosed :
    let text :=
      "@NativeBridge class A \x7b fun f() {} fun f(a: Int) {} fun g(s: EventSink, b: Int) {}"
    let found : List Entity := [⟨"A", [⟨.call, "f", "Unit", []⟩,
      ⟨.subscription, "g", "Unit", [⟨"b", "Int"⟩]⟩], .android⟩]
    (extract .kotlin text.toList none).result = .ok found ∧
      (∀ entity ∈ found, WellFormed .kotlin entity) ∧
      (extract .kotlin text.toList none).warnings = reports .kotlin text.toList none ∧
      (extract .kotlin text.toList none).warnings =
        [.unclosedBody none "A", .duplicateMember "A" "f"] := by
  intro text found
  have evaluated : (extract .kotlin text.toList none).result = .ok found ∧
      (extract .kotlin text.toList none).warnings =
        [.unclosedBody none "A", .duplicateMember "A" "f"] := by decide +kernel
  have holds := extract_invariant evaluated.1
  exact ⟨evaluated.1, holds.1, holds.2.2.1, evaluated.2⟩

end DartBindings.Declaration

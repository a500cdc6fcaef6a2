import DartBindings.Proofs.Declaration.Members

/-!
Which members of a class are exposed. The headers of a class body are exposed as callables one by
one, and of the callables of one name the first is kept and each later one is reported.
-/

set_option autoImplicit false

namespace DartBindings.Declaration

open Text Source Bridge

/-! ## Callables of one name -/

/-- The first callable of each name that is not taken. -/
def kept (taken : List String) : List Callable → List Callable
  | [] => []
  | callable :: rest =>
    if callable.name ∈ taken then kept taken rest
    else callable :: kept (callable.name :: taken) rest

/-- The callables that are not kept. -/
def dropped (taken : List String) : List Callable → List Callable
  | [] => []
  | callable :: rest =>
    if callable.name ∈ taken then callable :: dropped taken rest
    else dropped (callable.name :: taken) rest

section Kept

variable {taken others : List String} {callables first last : List Callable}

/-- Only the names of the callables matter among those that are taken. -/
theorem kept_congr
    (alike : ∀ callable ∈ callables, callable.name ∈ taken ↔ callable.name ∈ others) :
    kept taken callables = kept others callables ∧
      dropped taken callables = dropped others callables := by
  induction callables generalizing taken others with
  | nil => exact ⟨rfl, rfl⟩
  | cons callable rest ih =>
      obtain ⟨own, later⟩ := List.forall_mem_cons.mp alike
      simp only [kept, dropped, own]
      split
      · obtain ⟨sameKept, sameDropped⟩ := ih later
        exact ⟨sameKept, by rw [sameDropped]⟩
      · have alikeToo : ∀ other ∈ rest, other.name ∈ callable.name :: taken ↔
            other.name ∈ callable.name :: others := by
          intro other member
          rw [List.mem_cons, List.mem_cons, later other member]
        obtain ⟨sameKept, sameDropped⟩ := ih alikeToo
        exact ⟨by rw [sameKept], sameDropped⟩

theorem kept_append (taken : List String) (first last : List Callable) :
    kept taken (first ++ last) = kept taken first ++ kept (first.map (·.name) ++ taken) last ∧
      dropped taken (first ++ last) =
        dropped taken first ++ dropped (first.map (·.name) ++ taken) last := by
  induction first generalizing taken with
  | nil => exact ⟨rfl, rfl⟩
  | cons callable first ih =>
      have known : ∀ other ∈ last,
          other.name ∈ first.map (·.name) ++ callable.name :: taken ↔
            other.name ∈ (callable :: first).map (·.name) ++ taken := by
        intro other _
        simp only [List.map_cons, List.cons_append, List.mem_cons, List.mem_append]
        tauto
      obtain ⟨moved, movedToo⟩ := kept_congr known
      rw [List.cons_append]
      simp only [kept, dropped]
      split
      · rename_i already
        have known : ∀ other ∈ last, other.name ∈ first.map (·.name) ++ taken ↔
            other.name ∈ (callable :: first).map (·.name) ++ taken := by
          intro other _
          simp only [List.map_cons, List.cons_append, List.mem_cons, List.mem_append]
          constructor
          · exact .inr
          · rintro (same | among)
            · exact .inr (same ▸ already)
            · exact among
        obtain ⟨same, sameToo⟩ := kept_congr known
        rw [(ih taken).1, (ih taken).2, same, sameToo]
        exact ⟨rfl, rfl⟩
      · rw [(ih _).1, (ih _).2, moved, movedToo]
        exact ⟨rfl, rfl⟩

theorem mem_of_mem_kept {callable : Callable} (member : callable ∈ kept taken callables) :
    callable ∈ callables := by
  induction callables generalizing taken with
  | nil => cases member
  | cons first rest ih =>
      rw [kept] at member
      split at member
      · exact List.mem_cons_of_mem _ (ih member)
      · rcases List.mem_cons.mp member with rfl | later
        · exact List.mem_cons_self
        · exact List.mem_cons_of_mem _ (ih later)

/-- Some callable of each name is kept. -/
theorem exists_mem_kept {callable : Callable} (member : callable ∈ callables)
    (free : callable.name ∉ taken) :
    ∃ other ∈ kept taken callables, other.name = callable.name := by
  induction callables generalizing taken with
  | nil => cases member
  | cons first rest ih =>
      rw [kept]
      by_cases same : first.name = callable.name
      · rw [if_neg (same ▸ free)]
        exact ⟨first, List.mem_cons_self, same⟩
      · have later : callable ∈ rest := by
          rcases List.mem_cons.mp member with rfl | later
          · exact absurd rfl same
          · exact later
        split
        · exact ih later free
        · have stillFree : callable.name ∉ first.name :: taken := by
            rw [List.mem_cons, not_or]
            exact ⟨Ne.symm same, free⟩
          obtain ⟨other, among, named⟩ := ih later stillFree
          exact ⟨other, List.mem_cons_of_mem _ among, named⟩

theorem length_kept_add_dropped (taken : List String) (callables : List Callable) :
    (kept taken callables).length + (dropped taken callables).length = callables.length := by
  induction callables generalizing taken with
  | nil => rfl
  | cons callable rest ih =>
      rw [kept, dropped]
      split
      · rw [List.length_cons, List.length_cons, ← ih taken, Nat.add_assoc]
      · rw [List.length_cons, List.length_cons, ← ih (callable.name :: taken), Nat.add_right_comm]

/-- Callables of different names are all kept. -/
theorem kept_of_nodup (distinct : (callables.map (·.name)).Nodup)
    (fresh : ∀ callable ∈ callables, callable.name ∉ taken) :
    kept taken callables = callables ∧ dropped taken callables = [] := by
  induction callables generalizing taken with
  | nil => exact ⟨rfl, rfl⟩
  | cons callable rest ih =>
      rw [List.map_cons, List.nodup_cons] at distinct
      obtain ⟨own, later⟩ := List.forall_mem_cons.mp fresh
      have fresh : ∀ other ∈ rest, other.name ∉ callable.name :: taken := by
        intro other member
        rw [List.mem_cons, not_or]
        exact ⟨fun same => distinct.1 (same ▸ List.mem_map_of_mem member), later other member⟩
      obtain ⟨all, none⟩ := ih distinct.2 fresh
      rw [kept, dropped, if_neg own, if_neg own, all, none]
      exact ⟨rfl, rfl⟩

/-- A callable with a name of its own is kept, and makes no difference to the others. -/
theorem kept_append_cons {callable : Callable}
    (free : ∀ other ∈ first ++ last, other.name ≠ callable.name) :
    kept [] (first ++ callable :: last) =
        kept [] first ++ callable :: kept (first.map (·.name)) last ∧
      dropped [] (first ++ callable :: last) =
        dropped [] first ++ dropped (first.map (·.name)) last := by
  have unseen : callable.name ∉ first.map (·.name) ++ [] := by
    rw [List.append_nil]
    intro among
    obtain ⟨other, member, same⟩ := List.mem_map.mp among
    exact free other (List.mem_append_left _ member) same
  have alike : ∀ other ∈ last, other.name ∈ callable.name :: (first.map (·.name) ++ []) ↔
      other.name ∈ first.map (·.name) := by
    intro other member
    rw [List.append_nil, List.mem_cons, or_iff_right (free other (List.mem_append_right _ member))]
  obtain ⟨same, sameToo⟩ := kept_congr alike
  rw [(kept_append [] first _).1, (kept_append [] first _).2, kept, dropped, if_neg unseen,
    if_neg unseen, same, sameToo]
  exact ⟨rfl, rfl⟩

end Kept

/-! ## Headers -/

section Exposes

variable {dialect : Dialect} {text after : List Char} {marked : Bool} {stop pos : Nat}
  {headers more : List Header} {callables others : List Callable}

/-- These headers of a class body are exposed as these callables. -/
inductive Exposes (dialect : Dialect) (text : List Char) (marked : Bool) (stop : Nat) :
    List Header → List Callable → Prop where
  | nil : Exposes dialect text marked stop [] []
  | silent {header headers callables} :
      header.keyword ≠ dialect.memberKeyword ∨
        dialect.callable? text marked stop header = .ok none →
      Exposes dialect text marked stop headers callables →
      Exposes dialect text marked stop (header :: headers) callables
  | exposed {header callable headers callables} :
      header.keyword = dialect.memberKeyword →
      dialect.callable? text marked stop header = .ok (some callable) →
      Exposes dialect text marked stop headers callables →
      Exposes dialect text marked stop (header :: headers) (callable :: callables)

theorem Exposes.append (first : Exposes dialect text marked stop headers callables)
    (last : Exposes dialect text marked stop more others) :
    Exposes dialect text marked stop (headers ++ more) (callables ++ others) := by
  induction first with
  | nil => exact last
  | silent none _ ih => exact .silent none ih
  | exposed keyword shown _ ih => exact .exposed keyword shown ih

theorem exposes_of_forall (none : ∀ header ∈ headers,
    dialect.callable? text marked stop header = .ok none) :
    Exposes dialect text marked stop headers [] := by
  induction headers with
  | nil => exact .nil
  | cons header headers ih =>
      obtain ⟨own, later⟩ := List.forall_mem_cons.mp none
      exact .silent (.inr own) (ih later)

theorem exposes_of_harmless (harmless : ∀ header ∈ headers, Harmless text stop after header) :
    Exposes dialect text marked stop headers [] :=
  exposes_of_forall fun header member => (harmless header member).callable? dialect marked

theorem Exposes.of_option {header : Header} {callable : Option Callable}
    (keyword : header.keyword = dialect.memberKeyword)
    (shown : dialect.callable? text marked stop header = .ok callable) :
    Exposes dialect text marked stop [header] callable.toList := by
  cases callable with
  | none => exact .silent (.inr shown) .nil
  | some callable => exact .exposed keyword shown .nil

/-- The members of a class are those that its headers are exposed as, with a report of each that
has the name of an earlier one. -/
theorem Exposes.callables_eq (exposes : Exposes dialect text marked stop headers callables)
    (className : String) (taken : List String) :
    Declaration.callables dialect text className marked stop taken headers =
      ⟨(dropped taken callables).map fun callable => .duplicateMember className callable.name,
        .ok (kept taken callables)⟩ := by
  induction exposes generalizing taken with
  | nil => rfl
  | @silent header headers callables none _ ih =>
      rw [Declaration.callables, ih]
      rcases none with other | none
      · rw [if_pos (by simpa using other)]
      · simp only [none]
        split <;> rfl
  | @exposed header callable headers callables keyword shown _ ih =>
      have same : (header.keyword != dialect.memberKeyword) = false := by simp [keyword]
      rw [Declaration.callables, same, shown]
      simp only [Bool.false_eq_true, ↓reduceIte, ih, List.contains_iff_mem, kept, dropped]
      split <;> rfl

end Exposes

/-! ## Written members -/

/-- A header that is no class, or one from a passage. -/
def Ignored (text : List Char) (stop : Nat) (header : Header) : Prop :=
  header.keyword ≠ classKeyword ∨ ∃ after, Harmless text stop after header

/-- A walk finds written members one by one, as they are exposed, and no class. -/
theorem Walk.headers_members {dialect : Dialect} (regular : dialect.Regular) {layout : Layout}
    {text after : List Char} {extent : Extent} {pos : Nat} {members : List MemberText}
    (canonical : ∀ member ∈ members, member.Canonical dialect)
    (window : Window text extent.stop pos
      (members.flatMap (MemberText.spelling dialect layout) ++ after)) :
    ∃ found next, Window text extent.stop next after ∧
      (∀ header ∈ found, Ignored text extent.stop header) ∧
      (∀ marked, Exposes dialect text marked extent.stop found
        (members.filterMap (MemberText.callable? dialect marked))) ∧
      (Walk.start pos).headers dialect text extent =
        found ++ (Walk.start next).headers dialect text extent := by
  induction members generalizing pos with
  | nil => exact ⟨[], pos, window, by simp, fun _ => .nil, rfl⟩
  | cons member members ih =>
      rw [List.flatMap_cons, List.append_assoc] at window
      obtain ⟨own, others⟩ := List.forall_mem_cons.mp canonical
      obtain ⟨start, name, middle, first, signature, beyond, harmless, walked⟩ :=
        Walk.headers_member regular own window
      obtain ⟨found, next, rest, ignored, exposes, later⟩ := ih others beyond
      refine ⟨member.header dialect start name :: (first ++ found), next, rest, ?_, ?_, ?_⟩
      · intro header among
        rcases List.mem_cons.mp among with rfl | among
        · exact .inl regular.apart
        · rcases List.mem_append.mp among with inner | later
          · exact .inr ⟨_, harmless header inner⟩
          · exact ignored header later
      · intro marked
        have shown := Exposes.of_option rfl (callable?_header regular own start signature marked)
        have whole := shown.append ((exposes_of_harmless harmless).append (exposes marked))
        rw [List.filterMap_cons]
        cases exposed : member.callable? dialect marked <;>
          · rw [exposed] at whole
            exact whole
      · rw [walked, later, List.cons_append, List.append_assoc]

end DartBindings.Declaration

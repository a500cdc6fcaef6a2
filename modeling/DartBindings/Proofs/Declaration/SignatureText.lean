import DartBindings.Proofs.Declaration.Canonical
import DartBindings.Proofs.Declaration.Walk

/-!
Reading a written signature gives back its parameters and its return type.
-/

set_option autoImplicit false

namespace DartBindings.Declaration

open Text Source Bridge

/-! ## Parameters -/

theorem stripComments_of_plain {text : List Char}
    (plain : ∀ c ∈ text, isQuote c = false ∧ c ≠ '/') : stripComments text = text := by
  induction text with
  | nil => rw [stripComments.eq_def]
  | cons c rest ih =>
      obtain ⟨quote, slash⟩ := plain c List.mem_cons_self
      rw [stripComments.eq_def]
      simp only [quote, Bool.false_eq_true, ↓reduceIte, commentLength_of_ne slash]
      rw [ih fun d member => plain d (List.mem_cons_of_mem _ member)]

theorem lastWord_word {name : String} (named : IsWord name.toList) :
    lastWord name.toList = name := by
  have window : Window name.toList name.toList.length 0 (name.toList ++ []) := by
    rw [List.append_nil]
    exact window_whole name.toList
  have read := nextToken_word named (fun c rest same => by cases same) window
  have ended : nextToken name.toList (0 + name.toList.length) name.toList.length = none :=
    nextToken_of_ended (by simp) (window.of_append name.toList)
  rw [lastWord, tokens_of_some read, tokens_of_none ended]
  simp

section Parameters

variable {parameter : ParameterText}

theorem ParameterText.spelling_eq (parameter : ParameterText) :
    parameter.spelling =
      parameter.name.toList ++ ([':'] ++ ([' '] ++ parameter.type.spelling)) := by
  rw [ParameterText.spelling, listed_cons_cons, listed_singleton]
  rfl

theorem ParameterText.Spelled.uncut (spelled : parameter.Spelled) {separator : Char}
    (proper : isSeparator separator = true) (different : ':' ≠ separator) :
    Uncut separator parameter.spelling := by
  have name : Uncut separator parameter.name.toList :=
    (Nested.word spelled.name.chars).uncut proper
  have blank : Uncut separator [' '] := Nested.blank.uncut proper
  rw [ParameterText.spelling_eq]
  exact name.append ((uncut_colon different).append
    (blank.append (spelled.type.nested.uncut proper)))

theorem ParameterText.Spelled.solid (spelled : parameter.Spelled) :
    IsSolid parameter.spelling := by
  rw [ParameterText.spelling_eq, ← List.append_assoc [':']]
  exact (isSolid_word spelled.name).append _ spelled.type.solid

theorem ParameterText.Spelled.nested (spelled : parameter.Spelled) :
    Nested true parameter.spelling := by
  rw [ParameterText.spelling_eq]
  exact (Nested.word spelled.name.chars).append
    (.append (.separator (.inr rfl)) (.append .blank spelled.type.nested.within))

theorem ParameterText.Spelled.tight (spelled : parameter.Spelled) :
    Tight parameter.spelling := by
  rw [ParameterText.spelling_eq]
  have type := spelled.type.tight
  exact (tight_word spelled.name.chars).append_cons
    ((type.cons (by decide)).cons (by decide)) (by decide)

theorem parameter?_spelling (spelled : parameter.Spelled) :
    parameter? parameter.spelling = .ok (some parameter.declared) := by
  have whole : splitTopLevel ['='] parameter.spelling = [parameter.spelling] :=
    splitTopLevel_whole (spelled.uncut (by decide) (by decide)) spelled.solid
  have parts : splitTopLevel [':'] parameter.spelling =
      [parameter.name.toList, parameter.type.spelling] := by
    apply splitTopLevel_listed (by decide)
    · simp only [List.mem_cons, List.not_mem_nil, or_false]
      rintro piece (rfl | rfl)
      · exact (Nested.word spelled.name.chars).uncut (by decide)
      · exact spelled.type.nested.uncut (by decide)
    · simp only [List.mem_cons, List.not_mem_nil, or_false]
      rintro piece (rfl | rfl)
      · exact isSolid_word spelled.name
      · exact spelled.type.solid
  have some : parameter.name.isEmpty = false := by
    rw [Bool.eq_false_iff]
    intro empty
    rw [String.isEmpty_iff] at empty
    exact spelled.name.nonempty (by rw [empty]; rfl)
  simp [parameter?, whole, parts, lastWord_word spelled.name, some, ParameterText.declared,
    String.intercalate_singleton]

end Parameters

theorem mapM_map_ok {α β γ : Type} {read : β → Except ReadError γ} {write : α → β}
    {value : α → γ} {items : List α}
    (inverse : ∀ item ∈ items, read (write item) = .ok (value item)) :
    (items.map write).mapM read = .ok (items.map value) := by
  induction items with
  | nil => rfl
  | cons item items ih =>
      have later := ih fun other member => inverse other (List.mem_cons_of_mem _ member)
      rw [List.map_cons, List.mapM_cons, inverse item List.mem_cons_self, later]
      rfl

/-- A list is read as its parameters are read one by one. -/
theorem parameters_listed {α : Type} {write : α → List Char} {value : α → Parameter}
    {items : List α} (nested : ∀ item ∈ items, Nested true (write item))
    (uncut : ∀ item ∈ items, Uncut ',' (write item)) (solid : ∀ item ∈ items, IsSolid (write item))
    (read : ∀ item ∈ items, parameter? (write item) = .ok (some (value item))) :
    parameters (listed ',' (items.map write)) = .ok (items.map value) := by
  have list : Nested true (listed ',' (items.map write)) :=
    nested_listed (by decide) (List.forall_mem_map.mpr nested)
  have plain : ∀ c ∈ listed ',' (items.map write), isQuote c = false ∧ c ≠ '/' := by
    intro c inside
    have nested := list.chars c inside
    exact ⟨isQuote_of_isNestedChar nested, ne_of_class nested (by decide)⟩
  have pieces : splitTopLevel [','] (listed ',' (items.map write)) = items.map write :=
    splitTopLevel_listed (by decide) (List.forall_mem_map.mpr uncut)
      (List.forall_mem_map.mpr solid)
  have each : (items.map write).mapM parameter? = .ok (items.map fun item => some (value item)) :=
    mapM_map_ok read
  rw [parameters, stripComments_of_plain plain, pieces, each]
  simp [Except.map]

section Members

variable {dialect : Dialect} {member : MemberText}

theorem MemberText.Canonical.nested_list (canonical : member.Canonical dialect) :
    Nested true member.list := by
  apply nested_listed (by decide)
  exact List.forall_mem_map.mpr fun parameter among =>
    (canonical.parameters parameter among).nested

theorem parameters_list (canonical : member.Canonical dialect) :
    parameters member.list = .ok (member.parameters.map ParameterText.declared) :=
  parameters_listed (fun parameter among => (canonical.parameters parameter among).nested)
    (fun parameter among => (canonical.parameters parameter among).uncut (by decide) (by decide))
    (fun parameter among => (canonical.parameters parameter among).solid)
    (fun parameter among => parameter?_spelling (canonical.parameters parameter among))

end Members

/-! ## Return types -/

theorem typeLength_brace (afterDash : Bool) (room : Nat) (rest : List Char) :
    typeLength afterDash 0 room ('\x7b' :: rest) = 0 := by
  rw [typeLength]
  simp [commentLength_of_ne]

section Returns

variable {text after : List Char} {stop pos gap : Nat} {c : Char} {type : TypeTree}

theorem takeWhile_gap {text : List Char} (solid : IsSolid text) (gap : Nat) (rest : List Char) :
    (List.replicate gap ' ' ++ (text ++ rest)).takeWhile (fun c => c == ' ' || c == '\t') =
      List.replicate gap ' ' := by
  obtain ⟨d, others, rfl, significant⟩ := solid.first
  have space : d ≠ ' ' := by
    rintro rfl
    cases significant
  have tab : d ≠ '\t' := by
    rintro rfl
    cases significant
  rw [List.takeWhile_append_of_pos (by simp), List.cons_append, List.takeWhile_cons_of_neg,
    List.append_nil]
  simp [space, tab]

theorem typeLength_spelling (named : type.WellNamed) {room : Nat}
    (roomy : type.spelling.length + emptyBody.length ≤ room) (rest : List Char) :
    typeLength false 0 room (type.spelling ++ (emptyBody ++ rest)) = type.spelling.length + 1 := by
  simp only [emptyBody, List.length_cons, List.length_nil] at roomy
  rw [emptyBody, List.cons_append, List.cons_append,
    named.nested.typeLength (by simp) (by omega),
    typeLength_other (by decide) (by decide) false (by omega), typeLength_brace]
  omega

theorem captureType_spelling (named : type.WellNamed) (noDash : c ≠ '-')
    (window : Window text stop pos
      (c :: (List.replicate gap ' ' ++ (type.spelling ++ (emptyBody ++ after))))) :
    (captureType text (pos + 1) stop).1 = type.spelling := by
  have start := window.tail.of_append (List.replicate gap ' ')
  rw [List.length_replicate] at start
  have before : text[pos + 1 + gap - 1]? ≠ some '-' := by
    obtain ⟨tail, here⟩ := window.here
    have index : pos + 1 + gap - 1 = pos + gap := by omega
    rw [index, ← List.getElem?_drop, here]
    cases gap with
    | zero => simpa using noDash
    | succ n => simp [List.replicate_succ', List.append_assoc]
  obtain ⟨⟨tail, beyond⟩, ends⟩ := start
  have here : text.drop (pos + 1 + gap) = type.spelling ++ (emptyBody ++ (after ++ tail)) := by
    rw [beyond, List.append_assoc, List.append_assoc]
  have length : typeLength false 0 (stop - (pos + 1 + gap)) (text.drop (pos + 1 + gap)) =
      type.spelling.length + 1 := by
    rw [List.length_append, List.length_append] at ends
    rw [here]
    exact typeLength_spelling named (by omega) (after ++ tail)
  have taken : (text.drop (pos + 1 + gap)).take (type.spelling.length + 1) =
      type.spelling ++ [' '] := by
    rw [here, List.take_append, List.take_of_length_le (Nat.le_succ _)]
    simp [emptyBody]
  have dash : (decide (0 < pos + 1 + gap) && text[pos + 1 + gap - 1]? == some '-') = false := by
    rw [beq_eq_false_iff_ne.mpr before, Bool.and_false]
  rw [captureType, window.tail.take, takeWhile_gap named.solid, List.length_replicate]
  simp only [dash, length, taken]
  have stripped : strip ([] ++ (type.spelling ++ [' '])) = type.spelling :=
    strip_between (by simp) named.solid (by simp [isBlank])
  simpa using stripped

theorem returnTypeAt_spelling (named : type.WellNamed) (noDash : c ≠ '-')
    (window : Window text stop pos
      (c :: (List.replicate gap ' ' ++ (type.spelling ++ (emptyBody ++ after))))) :
    returnTypeAt text (pos + 1) stop = String.ofList type.spelling := by
  rw [returnTypeAt, captureType_spelling named noDash window,
    beforeConstraints_of_tight named.tight, strip_of_isSolid named.solid]

/-- There is a place for a return type, and what marks it states no effect. -/
def ReturnStyle.Proper : ReturnStyle → Prop
  | .colon => True
  | .arrow effects => "->" ∉ effects ∧ "\x7b" ∉ effects
  | .unstated => False

theorem afterEffects_of_some {effects : List String} {token : Token}
    (read : nextToken text pos stop = some token) (plain : token.value ∉ effects) :
    afterEffects effects text pos stop = some token := by
  rw [afterEffects_of_read read, if_neg (by simpa using plain)]

theorem symbolAt_colon {d : Char} (other : d ≠ ':') (rest : List Char) :
    symbolAt ':' (d :: rest) = ⟨.symbol, [':'], 1⟩ := by
  unfold symbolAt
  split
  · rename_i dash _
    exact absurd dash (by decide)
  · rename_i colons
    exact absurd (List.cons.inj colons).1 other
  · rfl

theorem ReturnStyle.read_spelling {style : ReturnStyle} (proper : style.Proper)
    {layout : Layout} {result : Option TypeTree} (named : ∀ type ∈ result, type.WellNamed)
    (window : Window text stop pos (style.spelling layout result ++ (emptyBody ++ after))) :
    style.read text pos stop =
      .ok (result.elim "" fun type => String.ofList type.spelling) := by
  cases result with
  | none =>
      have brace := nextToken_emptyBody window
      cases style with
      | colon => simp [ReturnStyle.read, brace, returnTypeAfter]
      | arrow effects =>
          have first := afterEffects_of_some brace proper.2
          simp [ReturnStyle.read, first, returnTypeAfter]
      | unstated => cases proper
  | some type =>
      have wellNamed := named type rfl
      cases style with
      | colon =>
          have spelled : Window text stop pos
              (':' :: (List.replicate layout.gap ' ' ++
                (type.spelling ++ (emptyBody ++ after)))) := by
            simpa [ReturnStyle.spelling] using window
          obtain ⟨d, more, follows, other⟩ : ∃ d more, List.replicate layout.gap ' ' ++
              (type.spelling ++ (emptyBody ++ after)) = d :: more ∧ d ≠ ':' := by
            cases layout.gap with
            | zero =>
                obtain ⟨c, rest, first, other⟩ := wellNamed.first
                exact ⟨c, rest ++ (emptyBody ++ after), by simp [first], other⟩
            | succ n => exact ⟨' ', _, rfl, by decide⟩
          have mark : nextToken text pos stop = some ⟨.symbol, ":", pos, pos + 1⟩ := by
            have window := spelled
            rw [follows] at window
            rw [nextToken_symbol (by decide) window, symbolAt_colon other]
          have type := returnTypeAt_spelling wellNamed (by decide) spelled
          simp [ReturnStyle.read, mark, returnTypeAfter, type]
      | arrow effects =>
          have spelled : Window text stop pos
              (' ' :: '-' :: '>' :: (List.replicate 1 ' ' ++
                (type.spelling ++ (emptyBody ++ after)))) := by
            simpa [ReturnStyle.spelling] using window
          have mark : nextToken text pos stop = some ⟨.symbol, "->", pos + 1, pos + 3⟩ := by
            rw [nextToken_blank (by decide) spelled, nextToken_symbol (by decide) spelled.tail]
            rfl
          have type := returnTypeAt_spelling wellNamed (by decide) spelled.tail.tail
          have first := afterEffects_of_some mark proper.1
          simp [ReturnStyle.read, first, returnTypeAfter, type]
      | unstated => cases proper

end Returns

/-! ## Signatures -/

/-- A member has the parameters that are read from its list, and the return type that it was
written with. -/
theorem Dialect.signature?_of_list {dialect : Dialect} (proper : dialect.returns.Proper)
    {member : MemberText} (nested : Nested true member.list) {found : List Parameter}
    (list : parameters member.list = .ok found)
    (named : ∀ type ∈ member.result, type.WellNamed) (layout : Layout)
    {text after : List Char} {stop pos : Nat}
    (window : Window text stop pos (member.tail dialect layout ++ (emptyBody ++ after))) :
    dialect.signature? text pos stop = .ok (some ⟨found, member.returned dialect⟩) := by
  have round : Window text stop pos ('(' :: (member.list ++ (')' ::
      (dialect.returns.spelling layout member.result ++ (emptyBody ++ after))))) := by
    simpa [MemberText.tail] using window
  have read : nextToken text pos stop = some ⟨.symbol, "(", pos, pos + 1⟩ :=
    nextToken_single (by decide) (by decide) (by decide) round
  have body : groupBody text (pos + 1) '(' ')' = .ok member.list := by
    obtain ⟨⟨tail, here⟩, -⟩ := round.tail
    rw [List.append_assoc] at here
    have found : closingIndex (some '(') (some ')') 1 (text.drop (pos + 1)) =
        some member.list.length := by
      rw [here, List.cons_append, nested.closingIndex_round Nat.one_pos,
        closingIndex_closing (by decide) (commentLength_of_ne (by decide) _) (by decide)]
      simp
    rw [groupBody, found, here]
    simp
  have stated := ReturnStyle.read_spelling proper named
    (round.tail.of_append member.list).tail
  rw [Dialect.signature?, read]
  simp only [bne_self_eq_false, Bool.false_eq_true, ↓reduceIte, body, list, stated]
  cases result : member.result with
  | none => simp [Bind.bind, Except.bind, pure, Except.pure, MemberText.returned, result]
  | some type =>
      have wellNamed := named type (by rw [result]; rfl)
      have nonempty : (String.ofList type.spelling).isEmpty = false := by
        rw [Bool.eq_false_iff]
        intro empty
        rw [String.isEmpty_iff] at empty
        exact wellNamed.solid.nonempty (String.ofList_injective empty)
      simp [Bind.bind, Except.bind, pure, Except.pure, MemberText.returned, result, nonempty]

/-- A written member has the signature that it was written from. -/
theorem Dialect.signature?_tail {dialect : Dialect} (proper : dialect.returns.Proper)
    {member : MemberText} (canonical : member.Canonical dialect) (layout : Layout)
    {text after : List Char} {stop pos : Nat}
    (window : Window text stop pos (member.tail dialect layout ++ (emptyBody ++ after))) :
    dialect.signature? text pos stop =
      .ok (some ⟨member.parameters.map ParameterText.declared, member.returned dialect⟩) :=
  Dialect.signature?_of_list proper canonical.nested_list (parameters_list canonical)
    canonical.result layout window

end DartBindings.Declaration

import DartBindings.Proofs.Declaration.RespacedParameters
import DartBindings.Proofs.Declaration.SeamWalk
import DartBindings.Proofs.Source.TypeText

/-!
Signatures in a commented text. A comment in a parameter list makes no difference but to blanks. A
comment inside a return type ends it.
-/

set_option autoImplicit false

namespace DartBindings.Declaration

open Text Source Bridge

/-! ## Parameter lists -/

section Parameters

variable {seam : Seam} {pos other stop n : Nat}

theorem Agrees.refl {α : Type} {R : α → α → Prop} (refl : ∀ x, R x x)
    (result : Except ReadError α) : Agrees R result result := by
  cases result with
  | ok value => exact .ok (refl value)
  | error cause => exact .error cause

theorem forall₂_matches_refl (parameters : List Parameter) :
    List.Forall₂ Matches parameters parameters :=
  List.forall₂_same.mpr fun parameter _ => matches_refl parameter

/-- The text of a group that the comment stands in. -/
theorem Seam.Fair.respaced (fair : seam.Fair pos) (early : pos ≤ seam.before.length)
    (late : seam.before.length ≤ n) (keeps : KeepsSinks seam.before seam.after)
    (closing : seam.plain[n]? = some ')') :
    Respaced (stripComments ((seam.plain.drop pos).take (n - pos)))
      (stripComments ((seam.commented.drop pos).take (n + seam.comment.length - pos))) := by
  obtain ⟨more, rfl⟩ := Nat.exists_eq_add_of_le late
  obtain ⟨spellings, stretch⟩ := fair.stretch
  have size : seam.before.length + more - pos = (seam.before.drop pos).length + more := by
    rw [List.length_drop]
    omega
  have sizeCommented : seam.before.length + more + seam.comment.length - pos =
      (seam.before.drop pos).length + (seam.comment.length + more) := by
    rw [List.length_drop]
    omega
  rw [seam.drop_plain early, seam.drop_commented early, size, sizeCommented,
    List.take_length_add_append, List.take_length_add_append, List.take_length_add_append]
  have ends : EndsWord (seam.after.drop more) := by
    rintro c rest here
    have first : seam.plain[seam.before.length + more]? = some c := by
      rw [← List.head?_drop, Seam.plain, List.drop_length_add_append, here]
      rfl
    rw [closing, Option.some.injEq] at first
    exact first ▸ by decide
  have fits {text : List Char} (follows : Fits seam.follow (text ++ seam.after.drop more)) :
      Fits seam.follow text := fun c first => follows c (head?_of_append first)
  have split : seam.after.take more ++ seam.after.drop more = seam.after :=
    List.take_append_drop more seam.after
  refine respaced_stripComments stretch seam.isComment (fits ?_) (fits ?_)
    (keeps.mono (List.drop_suffix pos seam.before) split.symm ends)
  · rw [split]
    exact seam.fits_after
  · rw [List.append_assoc, split]
    exact seam.fits_comment

/-- The same parameters stand in the group that starts here. -/
theorem Seam.InStep.parameters (step : seam.InStep stop pos other)
    (keeps : KeepsSinks seam.before seam.after)
    (found : findClosing seam.plain pos '(' ')' = .ok n) :
    Agrees (List.Forall₂ Matches)
      (parameters ((seam.plain.drop pos).take (n - pos)))
      (parameters ((seam.commented.drop other).take (seam.start n - other))) := by
  obtain ⟨m, rfl, index⟩ := findClosing_ok found
  obtain ⟨c, same, here⟩ := closingIndex_getElem? index
  cases same
  rw [List.getElem?_drop] at here
  rcases step.matched with ⟨early, rfl⟩ | ⟨late, rfl⟩
  · by_cases inside : other + m < seam.before.length
    · have size : other + m - other ≤ (seam.before.drop other).length := by
        rw [List.length_drop]
        omega
      rw [seam.start_of_lt inside, seam.drop_plain early, seam.drop_commented early,
        List.take_append_of_le_length size, List.take_append_of_le_length size]
      exact .refl forall₂_matches_refl _
    · have late := Nat.le_of_not_lt inside
      rw [seam.start_of_le late]
      exact ((step.stands.fair early).respaced early late keeps here).parameters
  · have size : pos + m + seam.comment.length - (pos + seam.comment.length) = pos + m - pos := by
      omega
    rw [seam.start_of_le (by omega), seam.drop_later late, size]
    exact .refl forall₂_matches_refl _

theorem Agrees.imp {α : Type} {R S : α → α → Prop} {result other : Except ReadError α}
    (agrees : Agrees R result other) (step : ∀ x y, R x y → S x y) : Agrees S result other := by
  cases agrees with
  | ok related => exact .ok (step _ _ related)
  | error cause => exact .error cause

end Parameters

/-! ## Return types -/

/-- The token that a stated return type follows. -/
def ReturnStyle.mark? (style : ReturnStyle) (text : List Char) (pos stop : Nat) : Option Token :=
  match style with
  | .colon => (nextToken text pos stop).filter (·.value == ":")
  | .arrow effects => (afterEffects effects text pos stop).filter (·.value == "->")
  | .unstated => none

/-- The mark whose type annotation holds the offset, if that is the one. -/
def annotationAt? (text : List Char) (offset stop : Nat) (mark : Option Token) : Option Token :=
  mark.filter fun token =>
    decide (token.stop ≤ offset ∧ offset < (captureType text token.stop stop).2)

/-- The return type that is stated after a mark when a comment stands at the offset. Inside of the
annotation it leaves what the text before it states there, elsewhere the type of the text. -/
def statedCut (text : List Char) (offset stop : Nat) (mark : Option Token) (type : String) :
    String :=
  match annotationAt? text offset stop mark with
  | some token => returnTypeAt (text.take offset) token.stop offset
  | none => type

section Returns

variable {seam : Seam} {pos other stop : Nat} {token : Token}

/-- After the comment an annotation is the same. -/
theorem Seam.captureType_later (seam : Seam) (late : seam.before.length < pos) (stop : Nat) :
    (captureType seam.commented (pos + seam.comment.length) (stop + seam.comment.length)).1 =
      (captureType seam.plain pos stop).1 := by
  simp only [captureType_eq, seam.drop_later (Nat.le_of_lt late), Nat.add_sub_add_right]
  generalize (((seam.plain.drop pos).take (stop - pos)).takeWhile isSpace).length = spaces
  have start : pos + seam.comment.length + spaces = pos + spaces + seam.comment.length := by omega
  have room : stop + seam.comment.length - (pos + spaces + seam.comment.length) =
      stop - (pos + spaces) := by omega
  have dash : seam.commented[pos + spaces + seam.comment.length - 1]? =
      seam.plain[pos + spaces - 1]? := by
    have shift : pos + spaces + seam.comment.length - 1 =
        pos + spaces - 1 + seam.comment.length := by
      omega
    rw [shift, ← List.head?_drop, ← List.head?_drop, seam.drop_later (by omega)]
  have positive : 0 < pos + spaces := by omega
  have positiveLater : 0 < pos + spaces + seam.comment.length := by omega
  rw [start, room, dash, seam.drop_later (by omega)]
  simp only [positive, positiveLater]

theorem Seam.take_plain (seam : Seam) : seam.plain.take seam.before.length = seam.before :=
  List.take_left

theorem Seam.commentLength_ne_zero (seam : Seam) :
    commentLength (seam.comment ++ seam.after) ≠ 0 := by
  obtain ⟨c, tail, same⟩ := seam.isComment.exists_cons
  rw [seam.isComment, same]
  exact Nat.succ_ne_zero _

/-- A type annotation ends in its window. -/
theorem captureType_le (text : List Char) (pos stop : Nat) :
    (captureType text pos stop).2 ≤ max pos stop := by
  rw [captureType_eq]
  have bound : (((text.drop pos).take (stop - pos)).takeWhile isSpace).length ≤ stop - pos :=
    (List.takeWhile_prefix _).length_le.trans (List.length_take_le _ _)
  generalize (((text.drop pos).take (stop - pos)).takeWhile isSpace).length = spaces at bound ⊢
  dsimp only
  generalize (decide (0 < pos + spaces) && text[pos + spaces - 1]? == some '-') = dash
  have short := typeLength_le dash 0 (stop - (pos + spaces)) (text.drop (pos + spaces))
  omega

theorem statedCut_some {text : List Char} {offset : Nat} {type : String}
    (early : token.stop ≤ offset)
    (inside : offset < (captureType text token.stop stop).2) :
    statedCut text offset stop (some token) type =
      returnTypeAt (text.take offset) token.stop offset := by
  have holds : annotationAt? text offset stop (some token) = some token := by
    rw [annotationAt?, Option.filter_some, if_pos (by simp [early, inside])]
  rw [statedCut, holds]

@[simp] theorem statedCut_none (text : List Char) (offset stop : Nat) (type : String) :
    statedCut text offset stop none type = type := rfl

theorem statedCut_apart {text : List Char} {offset : Nat} {type : String}
    (apart : ¬(token.stop ≤ offset ∧ offset < (captureType text token.stop stop).2)) :
    statedCut text offset stop (some token) type = type := by
  have outside : annotationAt? text offset stop (some token) = none := by
    rw [annotationAt?, Option.filter_some, if_neg (by simpa using apart)]
  rw [statedCut, outside]

theorem Seam.InStep.returnTypeAt (step : seam.InStep stop pos other)
    (noSlash : seam.before.getLast? ≠ some '/')
    (read : Source.nextToken seam.plain pos stop = some token) :
    returnTypeAt seam.commented (seam.stop token.stop) (seam.start stop) =
      statedCut seam.plain seam.before.length stop (some token)
        (returnTypeAt seam.plain token.stop stop) := by
  have next := step.afterToken read
  have same {type : List Char}
      (apart : ¬(token.stop ≤ seam.before.length ∧
        seam.before.length < (captureType seam.plain token.stop stop).2))
      (captured : type = (captureType seam.plain token.stop stop).1) :
      String.ofList (strip (beforeConstraints type)) =
        statedCut seam.plain seam.before.length stop (some token)
          (Declaration.returnTypeAt seam.plain token.stop stop) := by
    rw [statedCut_apart apart, captured]
    rfl
  by_cases early : token.stop ≤ seam.before.length
  · rw [seam.stop_of_le early]
    by_cases window : stop < seam.before.length
    · rw [seam.start_of_lt window]
      have ends := captureType_le seam.plain token.stop stop
      refine same (by omega) ?_
      rw [Seam.commented, Seam.plain, captureType_within early window,
        captureType_within early window]
    · have late := Nat.le_of_not_lt window
      have captures := capturesUpTo early noSlash
      have ended := captures.ended (seam.comment ++ seam.after) (seam.start stop)
        (Nat.le_trans late (seam.le_start stop)) (.inr seam.commentLength_ne_zero)
      by_cases inside : (captureType seam.plain token.stop stop).2 ≤ seam.before.length
      · refine same (by omega) ?_
        rw [Seam.commented, ended]
        exact (captures.inside seam.after stop late inside).symm
      · rw [statedCut_some early (Nat.lt_of_not_le inside), seam.take_plain,
          Declaration.returnTypeAt, Seam.commented, ended]
        rfl
  · have late := Nat.lt_of_not_le early
    have window := next.stands.beyond (Nat.le_of_lt late)
    rw [seam.stop_of_lt late, seam.start_of_le window]
    exact same (by omega) (seam.captureType_later late stop)

/-- Effects are passed over in step. -/
theorem Seam.InStep.afterEffects (effects : List String) (step : seam.InStep stop pos other) :
    afterEffects effects seam.commented other (seam.start stop) =
        (afterEffects effects seam.plain pos stop).map seam.token ∧
      ∀ token ∈ Declaration.afterEffects effects seam.plain pos stop, ∃ before otherBefore,
        seam.InStep stop before otherBefore ∧
          Source.nextToken seam.plain before stop = some token := by
  induction pos using afterEffects.induct effects seam.plain stop generalizing other with
  | case1 pos ended =>
      have same := step.nextToken
      rw [ended] at same
      rw [afterEffects_of_none ended, afterEffects_of_none same]
      exact ⟨rfl, fun _ member => by cases member⟩
  | case2 pos token read effect ih =>
      have same := step.nextToken
      rw [read] at same
      rw [afterEffects_of_read read, afterEffects_of_read same, Seam.token_value, if_pos effect,
        if_pos effect]
      exact ih (step.afterToken read)
  | case3 pos token read effect =>
      have same := step.nextToken
      rw [read] at same
      rw [afterEffects_of_read read, afterEffects_of_read same, Seam.token_value, if_neg effect,
        if_neg effect]
      refine ⟨rfl, fun found member => ?_⟩
      cases member
      exact ⟨pos, _, step, read⟩

/-- What a style of stating return types takes from the token that its mark may be. -/
theorem returnTypeAfter_eq (mark : String) (text : List Char) (stop : Nat)
    (found : Option Token) :
    returnTypeAfter mark text stop found =
      ((found.filter (·.value == mark)).map fun token => returnTypeAt text token.stop stop).getD
        "" := by
  cases found with
  | none => rfl
  | some token =>
      rw [returnTypeAfter, Option.filter_some]
      split <;> rfl

theorem filter_mark_token (mark : String) (found : Option Token) :
    (found.map seam.token).filter (·.value == mark) =
      (found.filter (·.value == mark)).map seam.token := by
  cases found with
  | none => rfl
  | some token =>
      rw [Option.map_some, Option.filter_some, Option.filter_some, Seam.token_value]
      split <;> rfl

/-- The return type after the token is the same in both texts, unless the comment cuts it. -/
theorem returnTypeAfter_commented (noSlash : seam.before.getLast? ≠ some '/') (mark : String)
    {found : Option Token}
    (reached : ∀ token ∈ found, ∃ before otherBefore, seam.InStep stop before otherBefore ∧
      nextToken seam.plain before stop = some token) :
    returnTypeAfter mark seam.commented (seam.start stop) (found.map seam.token) =
      statedCut seam.plain seam.before.length stop (found.filter (·.value == mark))
        (returnTypeAfter mark seam.plain stop found) := by
  rw [returnTypeAfter_eq, returnTypeAfter_eq, filter_mark_token]
  cases marked : found.filter (·.value == mark) with
  | none => simp only [Option.map_none, Option.getD_none, statedCut_none]
  | some token =>
      have member : token ∈ found := (Option.filter_eq_some_iff.mp marked).1
      obtain ⟨before, otherBefore, step, read⟩ := reached token member
      simp only [Option.map_some, Option.getD_some, Seam.token_stop]
      exact step.returnTypeAt noSlash read

/-- The member states its return type in both texts, and only the comment can cut it. -/
theorem Seam.InStep.returns (step : seam.InStep stop pos other)
    (noSlash : seam.before.getLast? ≠ some '/') (style : ReturnStyle) :
    Agrees (fun type otherType => otherType =
        statedCut seam.plain seam.before.length stop (style.mark? seam.plain pos stop) type)
      (style.read seam.plain pos stop) (style.read seam.commented other (seam.start stop)) := by
  cases style with
  | colon =>
      change Agrees _ (.ok (returnTypeAfter _ _ _ _)) (.ok (returnTypeAfter _ _ _ _))
      rw [step.nextToken]
      exact .ok (returnTypeAfter_commented noSlash ":" fun token read => ⟨pos, other, step, read⟩)
  | arrow effects =>
      obtain ⟨same, reached⟩ := step.afterEffects effects
      change Agrees _ (.ok (returnTypeAfter _ _ _ _)) (.ok (returnTypeAfter _ _ _ _))
      rw [same]
      exact .ok (returnTypeAfter_commented noSlash "->" reached)
  | unstated => exact .error .unstatedReturn

/-- Outside of the window no return type is stated. -/
theorem ReturnStyle.read_of_le {text : List Char} (ended : stop ≤ pos) (style : ReturnStyle) :
    style.read text pos stop = style.read [] 0 0 := by
  have none := @nextToken_of_le pos stop text ended
  have empty : Source.nextToken [] 0 0 = Option.none := nextToken_of_le (Nat.le_refl 0)
  cases style with
  | colon => simp only [ReturnStyle.read, none, empty, Declaration.returnTypeAfter]
  | arrow effects =>
      simp only [ReturnStyle.read, afterEffects_of_none none, afterEffects_of_none empty,
        Declaration.returnTypeAfter]
  | unstated => rfl

theorem ReturnStyle.mark?_of_le {text : List Char} (ended : stop ≤ pos) (style : ReturnStyle) :
    style.mark? text pos stop = none := by
  have none := @nextToken_of_le pos stop text ended
  cases style with
  | colon => rw [ReturnStyle.mark?, none, Option.filter_none]
  | arrow effects => rw [ReturnStyle.mark?, afterEffects_of_none none, Option.filter_none]
  | unstated => rfl

end Returns

/-! ## Members -/

def Dialect.orVoid (dialect : Dialect) (stated : String) : String :=
  if stated.isEmpty then dialect.voidType else stated

/-- The offset after the parameter list that starts here, if one does. -/
def listStop? (text : List Char) (pos stop : Nat) : Option Nat :=
  (nextToken text pos stop).bind fun token =>
    if token.value == "(" then (findClosing text token.stop '(' ')').toOption.map (· + 1) else none

/-- The token that the return type of a signature follows. -/
def Dialect.returnMark? (dialect : Dialect) (text : List Char) (pos stop : Nat) : Option Token :=
  (listStop? text pos stop).bind fun next => dialect.returns.mark? text next stop

/-- The return type that a member is exposed with when a comment stands at the offset. Inside of
the annotation of the member it leaves what the text before it states there, elsewhere the type
that the member is exposed with in the text. -/
def Dialect.returnTypeCut (dialect : Dialect) (text : List Char) (offset stop : Nat)
    (member : Header) (type : String) : String :=
  match annotationAt? text offset stop (dialect.returnMark? text member.stop stop) with
  | some mark => dialect.orVoid (returnTypeAt (text.take offset) mark.stop offset)
  | none => type

/-- The member is exposed alike in the text with a comment at the offset: the same but for blanks
inside the types of parameters and for the return type, which the comment ends if it stands
there. -/
structure SameMember (dialect : Dialect) (text : List Char) (offset stop : Nat) (member : Header)
    (callable other : Callable) : Prop where
  kind : other.kind = callable.kind
  name : other.name = callable.name
  returnType : other.returnType =
    dialect.returnTypeCut text offset stop member callable.returnType
  parameters : List.Forall₂ SameParameter callable.parameters other.parameters

/-- The signature in the text with a comment at the offset. -/
structure SameSignature (dialect : Dialect) (text : List Char) (offset stop : Nat)
    (mark : Option Token) (signature other : Signature) : Prop where
  parameters : List.Forall₂ Matches signature.parameters other.parameters
  returnType : ∃ stated, signature.returnType = dialect.orVoid stated ∧
    other.returnType = dialect.orVoid (statedCut text offset stop mark stated)

/-- What a comment must not come between for the members to stay the same. -/
structure Seam.Apart (seam : Seam) (dialect : Dialect) : Prop where
  noSlash : seam.before.getLast? ≠ some '/'
  keepsSinks : KeepsSinks seam.before seam.after
  keepsArguments : seam.KeepsArguments dialect

section Members

variable {seam : Seam} {pos other stop : Nat} {token : Token} {dialect : Dialect}

theorem Agrees.bind {α β : Type} {R : α → α → Prop} {S : β → β → Prop}
    {first second : Except ReadError α} {f g : α → Except ReadError β}
    (agrees : Agrees R first second)
    (next : ∀ x y, R x y → Agrees S (f x) (g y)) : Agrees S (first >>= f) (second >>= g) := by
  cases agrees with
  | ok related => exact next _ _ related
  | error cause => exact .error cause

/-- The return type after a parameter list. -/
theorem Seam.InStep.returnsAfter (step : seam.InStep stop pos other)
    (noSlash : seam.before.getLast? ≠ some '/') {n : Nat}
    (found : findClosing seam.plain pos '(' ')' = .ok n) (style : ReturnStyle) :
    Agrees (fun type otherType => otherType =
        statedCut seam.plain seam.before.length stop (style.mark? seam.plain (n + 1) stop) type)
      (style.read seam.plain (n + 1) stop)
      (style.read seam.commented (seam.start n + 1) (seam.start stop)) := by
  by_cases inside : n < stop
  · have next : seam.InStep stop (n + 1) (seam.start n + 1) :=
      ⟨step.stands.afterGroup .round found inside, seam.at_succ_start n⟩
    exact next.returns noSlash style
  · have order : seam.start stop ≤ seam.start n := by
      unfold Seam.start
      split <;> split <;> omega
    have plain : style.read seam.plain (n + 1) stop = _ := style.read_of_le (by omega)
    have commented : style.read seam.commented (seam.start n + 1) (seam.start stop) = _ :=
      style.read_of_le (by omega)
    rw [plain, commented, style.mark?_of_le (by omega)]
    refine .refl ?_ _
    exact fun type => (statedCut_none seam.plain seam.before.length stop type).symm

theorem Dialect.returnMark?_eq {text : List Char} {n : Nat}
    (read : nextToken text pos stop = some token) (list : token.value = "(")
    (found : findClosing text token.stop '(' ')' = .ok n) :
    dialect.returnMark? text pos stop = dialect.returns.mark? text (n + 1) stop := by
  simp [Dialect.returnMark?, listStop?, read, list, found, Except.toOption]

theorem Seam.InStep.signature? (apart : seam.Apart dialect) (step : seam.InStep stop pos other) :
    Agrees
      (Option.Rel (SameSignature dialect seam.plain seam.before.length stop
        (dialect.returnMark? seam.plain pos stop)))
      (dialect.signature? seam.plain pos stop)
      (dialect.signature? seam.commented other (seam.start stop)) := by
  have same := step.nextToken
  unfold Dialect.signature?
  rw [same]
  cases read : Source.nextToken seam.plain pos stop with
  | none => exact .ok .none
  | some token =>
      have inside := step.afterToken read
      simp only [Option.map_some, Seam.token_value, Seam.token_stop, groupBody_eq,
        inside.stands.findClosing inside.matched .round]
      cases list : token.value != "(" with
      | true => exact .ok .none
      | false =>
          simp only [Bool.false_eq_true, ↓reduceIte]
          cases found : findClosing seam.plain token.stop '(' ')' with
          | error failure => exact .ok .none
          | ok n =>
              have foundLater := inside.stands.findClosing inside.matched .round
              rw [found] at foundLater
              dsimp only at foundLater ⊢
              rw [groupBody_length found, groupBody_length foundLater]
              refine (inside.parameters apart.keepsSinks found).bind fun _ _ parameters => ?_
              refine (inside.returnsAfter apart.noSlash found _).bind fun _ _ stated => ?_
              have opens : token.value = "(" := by simpa using list
              rw [Dialect.returnMark?_eq read opens found]
              exact .ok (.some ⟨parameters, _, rfl, congrArg dialect.orVoid stated⟩)

theorem any_isSink_of_matches {parameters others : List Parameter}
    (each : List.Forall₂ Matches parameters others) :
    others.any isSink = parameters.any isSink := by
  induction each with
  | nil => rfl
  | cons first _ ih => rw [List.any_cons, List.any_cons, ih, first.2]

theorem filter_isSink_of_matches {parameters others : List Parameter}
    (each : List.Forall₂ Matches parameters others) :
    List.Forall₂ Matches (parameters.filter fun parameter => !isSink parameter)
      (others.filter fun parameter => !isSink parameter) :=
  List.rel_filter (fun _ _ same => by dsimp only; rw [same.2]) each

/-- A signature that is the same is exposed as the same member. -/
theorem SameSignature.expose {text : List Char} {offset : Nat} {member : Header}
    {signature other : Signature}
    (same : SameSignature dialect text offset stop (dialect.returnMark? text member.stop stop)
      signature other) (wholeClass : Bool) (seam : Seam) :
    Option.Rel (SameMember dialect text offset stop member)
      (dialect.expose wholeClass member signature)
      (dialect.expose wholeClass (seam.header member) other) := by
  have names {parameters others : List Parameter} (each : List.Forall₂ Matches parameters others) :
      List.Forall₂ SameParameter parameters others := each.imp fun _ _ => And.left
  have exposes : dialect.exposesCall wholeClass (seam.header member) =
      dialect.exposesCall wholeClass member := rfl
  have returnType : other.returnType =
      dialect.returnTypeCut text offset stop member signature.returnType := by
    obtain ⟨stated, type, otherType⟩ := same.returnType
    rw [type, otherType, statedCut, Dialect.returnTypeCut]
    cases annotationAt? text offset stop (dialect.returnMark? text member.stop stop) <;> rfl
  unfold Dialect.expose
  rw [any_isSink_of_matches same.parameters, exposes]
  split
  · exact .some ⟨rfl, rfl, returnType, names (filter_isSink_of_matches same.parameters)⟩
  · split
    · exact .some ⟨rfl, rfl, returnType, names same.parameters⟩
    · exact .none

/-- A member is exposed as the same callable. -/
theorem Seam.Stands.callable? (apart : seam.Apart dialect) {member : Header}
    (stands : seam.Stands member.stop stop) (wholeClass : Bool) :
    Agrees (Option.Rel (SameMember dialect seam.plain seam.before.length stop member))
      (dialect.callable? seam.plain wholeClass stop member)
      (dialect.callable? seam.commented wholeClass (seam.start stop) (seam.header member)) := by
  have step : seam.InStep stop member.stop (seam.stop member.stop) := ⟨stands, seam.at_stop _⟩
  have typeLevel : dialect.typeLevel.any (seam.header member).modifiers.contains =
      dialect.typeLevel.any member.modifiers.contains := rfl
  unfold Dialect.callable?
  rw [typeLevel]
  split
  · exact .ok .none
  · refine (step.signature? apart).bind fun signature other same => .ok ?_
    cases same with
    | none => exact .none
    | some same => exact same.expose wholeClass seam

end Members

end DartBindings.Declaration

import DartBindings.Proofs.Source.Locality
import DartBindings.Proofs.Text.Strip
import DartBindings.Source.TypeText

/-!
What of a text decides how far a type annotation runs. A comment after the known part of the text
ends the annotation there, unless it has ended before.
-/

set_option autoImplicit false

namespace DartBindings.Source

open Text

/-! ## One character at a time -/

/-- Whether the character before was a dash and how many brackets are open, after one more
character of a type; `none` if that character ends the type. -/
def typeStep (afterDash : Bool) (depth : Nat) (c : Char) : Option (Bool × Nat) :=
  if c = '(' || c = '[' || c = '<' then some (false, depth + 1)
  else if c = ')' || c = ']' || (c = '>' && !afterDash) then
    if depth = 0 then none else some (false, depth - 1)
  else if depth = 0 && (c = '\x7b' || c = '\x7d' || c = '=' || c = ';' || c = '\n') then none
  else some (c = '-', depth)

section TypeLength

variable {afterDash : Bool} {depth room : Nat} {c : Char} {front rest : List Char}

theorem typeLength_cons (afterDash : Bool) (depth room : Nat) (c : Char) (rest : List Char) :
    typeLength afterDash depth room (c :: rest) =
      if room = 0 ∨ commentLength (c :: rest) ≠ 0 then 0
      else match typeStep afterDash depth c with
        | none => 0
        | some (dash, level) => typeLength dash level (room - 1) rest + 1 := by
  rw [typeLength]
  unfold typeStep
  by_cases ended : room = 0
  · simp only [ended, true_or, ↓reduceIte]
  · by_cases comment : commentLength (c :: rest) ≠ 0
    · simp only [ended, comment, or_true, ↓reduceIte, not_false_eq_true, ne_eq]
    · simp only [ended, comment, or_self, ↓reduceIte]
      repeat' split
      all_goals simp_all

theorem typeLength_le (afterDash : Bool) (depth room : Nat) (text : List Char) :
    typeLength afterDash depth room text ≤ room := by
  induction text generalizing afterDash depth room with
  | nil => exact Nat.zero_le room
  | cons c rest ih =>
      rw [typeLength_cons]
      split
      · exact Nat.zero_le room
      · rename_i goesOn
        split
        · exact Nat.zero_le room
        · rename_i dash level _
          have roomy : room - 1 + 1 ≤ room := by omega
          exact Nat.le_trans (Nat.succ_le_succ (ih dash level (room - 1))) roomy

theorem typeLength_zero (afterDash : Bool) (depth : Nat) (text : List Char) :
    typeLength afterDash depth 0 text = 0 :=
  Nat.le_zero.mp (typeLength_le afterDash depth 0 text)

/-- A comment ends a type, and so does the end of the text. -/
theorem typeLength_ended (ended : rest = [] ∨ commentLength rest ≠ 0) :
    typeLength afterDash depth room rest = 0 := by
  cases rest with
  | nil => rfl
  | cons c rest =>
      have comment := ended.resolve_left (List.cons_ne_nil c rest)
      rw [typeLength_cons, if_pos (.inr comment)]

/-- Two characters decide whether a comment starts. -/
theorem commentLength_ne_zero_congr (c d : Char) (text other : List Char) :
    commentLength (c :: d :: text) ≠ 0 ↔ commentLength (c :: d :: other) ≠ 0 := by
  rw [commentLength_cons_cons, commentLength_cons_cons]
  split
  · simp
  · split <;> simp

/-- In a window that ends in the known part, nothing else is read. -/
theorem typeLength_within (inside : room < front.length) (afterDash : Bool) (depth : Nat)
    (rest : List Char) :
    typeLength afterDash depth room (front ++ rest) = typeLength afterDash depth room front := by
  induction front generalizing afterDash depth room with
  | nil => cases inside
  | cons c front ih =>
      rw [List.cons_append, typeLength_cons, typeLength_cons]
      by_cases ended : room = 0
      · rw [if_pos (.inl ended), if_pos (.inl ended)]
      · rw [List.length_cons] at inside
        match front with
        | [] => exact absurd inside (by simp; omega)
        | d :: front =>
            simp only [List.cons_append, commentLength_ne_zero_congr c d (front ++ rest) front]
            split
            · rfl
            · split
              · rfl
              · rename_i dash level _
                have later := @ih (room - 1) (by omega) dash level
                rw [List.cons_append] at later
                rw [later]

/-- How a type runs on through the known part: it ends there, whatever comes later, or it goes on
with what comes later. -/
theorem typeLength_append (noSlash : front.getLast? ≠ some '/') (afterDash : Bool) (depth : Nat) :
    (∃ n < front.length, ∀ rest room, front.length ≤ room →
        typeLength afterDash depth room (front ++ rest) = n) ∨
      ∃ dash level, ∀ rest room, front.length ≤ room →
        typeLength afterDash depth room (front ++ rest) =
          typeLength dash level (room - front.length) rest + front.length := by
  induction front generalizing afterDash depth with
  | nil => exact .inr ⟨afterDash, depth, fun rest room _ => rfl⟩
  | cons c front ih =>
      -- Whether a comment starts here is known: a slash is not the last character.
      have known : (∀ rest, commentLength (c :: (front ++ rest)) ≠ 0) ∨
          ∀ rest, ¬ commentLength (c :: (front ++ rest)) ≠ 0 := by
        cases front with
        | nil =>
            have other : c ≠ '/' := by simpa using noSlash
            exact .inr fun rest => not_not.mpr (commentLength_of_ne other rest)
        | cons d front =>
            by_cases comment : commentLength (c :: d :: front) ≠ 0
            · exact .inl fun rest => (commentLength_ne_zero_congr c d _ _).mp comment
            · exact .inr fun rest =>
                (not_congr (commentLength_ne_zero_congr c d front (front ++ rest))).mp comment
      have later : front.getLast? ≠ some '/' := by
        cases front with
        | nil => simp
        | cons d front => rwa [List.getLast?_cons_cons] at noSlash
      simp only [List.cons_append, typeLength_cons, List.length_cons]
      rcases known with comment | plain
      · refine .inl ⟨0, Nat.succ_pos _, fun rest room _ => ?_⟩
        rw [if_pos (.inr (comment rest))]
      · have goesOn {rest : List Char} {room : Nat} (inside : front.length + 1 ≤ room) :
            ¬ (room = 0 ∨ commentLength (c :: (front ++ rest)) ≠ 0) := by
          rintro (ended | comment)
          · omega
          · exact plain rest comment
        cases step : typeStep afterDash depth c with
        | none =>
            refine .inl ⟨0, Nat.succ_pos _, fun rest room inside => ?_⟩
            rw [if_neg (goesOn inside)]
        | some next =>
            obtain ⟨dash, level⟩ := next
            rcases ih later dash level with ⟨n, less, same⟩ | ⟨dash, level, same⟩
            · refine .inl ⟨n + 1, by omega, fun rest room inside => ?_⟩
              rw [if_neg (goesOn inside)]
              dsimp only
              rw [same rest (room - 1) (by omega)]
            · refine .inr ⟨dash, level, fun rest room inside => ?_⟩
              have size : room - 1 - front.length = room - (front.length + 1) := by omega
              rw [if_neg (goesOn inside)]
              dsimp only
              rw [same rest (room - 1) (by omega), size, Nat.add_assoc]

end TypeLength

/-! ## The annotation -/

def isSpace (c : Char) : Bool :=
  c == ' ' || c == '\t'

section CaptureType

variable {before rest : List Char} {pos stop : Nat}

theorem captureType_eq (text : List Char) (pos stop : Nat) :
    captureType text pos stop =
      let start := pos + (((text.drop pos).take (stop - pos)).takeWhile isSpace).length
      let length := typeLength (decide (0 < start) && text[start - 1]? == some '-') 0 (stop - start)
        (text.drop start)
      (strip ((text.drop start).take length), start + length) := rfl

theorem dash_append {start : Nat} (early : start ≤ before.length) (rest : List Char) :
    (decide (0 < start) && (before ++ rest)[start - 1]? == some '-') =
      (decide (0 < start) && before[start - 1]? == some '-') := by
  by_cases positive : 0 < start
  · rw [List.getElem?_append_left (by omega)]
  · simp [positive]

/-- In a window that ends in the known part, nothing else is read. -/
theorem captureType_within (early : pos ≤ before.length) (inside : stop < before.length)
    (rest : List Char) : captureType (before ++ rest) pos stop = captureType before pos stop := by
  have window : ((before ++ rest).drop pos).take (stop - pos) =
      (before.drop pos).take (stop - pos) := by
    rw [List.drop_append_of_le_length early, List.take_append_of_le_length]
    rw [List.length_drop]
    omega
  simp only [captureType_eq, window]
  have bound : (((before.drop pos).take (stop - pos)).takeWhile isSpace).length ≤ stop - pos :=
    (List.takeWhile_prefix _).length_le.trans (List.length_take_le _ _)
  generalize (((before.drop pos).take (stop - pos)).takeWhile isSpace).length = spaces at bound ⊢
  have size := @List.length_drop _ (pos + spaces) before
  have known (dash : Bool) : typeLength dash 0 (stop - (pos + spaces))
      (before.drop (pos + spaces) ++ rest) =
        typeLength dash 0 (stop - (pos + spaces)) (before.drop (pos + spaces)) := by
    by_cases roomy : stop - (pos + spaces) < (before.drop (pos + spaces)).length
    · exact typeLength_within roomy dash 0 rest
    · have none : stop - (pos + spaces) = 0 := by omega
      rw [none, typeLength_zero, typeLength_zero]
  rw [dash_append (by omega), List.drop_append_of_le_length (by omega), known,
    List.take_append_of_le_length]
  exact (typeLength_le _ _ _ _).trans (by omega)

/-- Where the known part ends between tokens, an annotation that starts in it either ends in it, or
what follows decides how it goes on. -/
structure CapturesUpTo (before : List Char) (pos : Nat) : Prop where
  ended : ∀ rest stop, before.length ≤ stop → rest = [] ∨ commentLength rest ≠ 0 →
    captureType (before ++ rest) pos stop = captureType before pos before.length
  inside : ∀ rest stop, before.length ≤ stop →
    (captureType (before ++ rest) pos stop).2 ≤ before.length →
      (captureType (before ++ rest) pos stop).1 = (captureType before pos before.length).1

theorem takeWhile_isSpace_ended (ended : rest = [] ∨ commentLength rest ≠ 0) (n : Nat) :
    (rest.take n).takeWhile isSpace = [] := by
  rcases ended with rfl | comment
  · rw [List.take_nil]
    rfl
  · cases rest with
    | nil => rw [List.take_nil]; rfl
    | cons c rest =>
        obtain ⟨n', length⟩ := Nat.exists_eq_succ_of_ne_zero comment
        rw [eq_slash_of_commentLength length]
        cases n with
        | zero => rfl
        | succ n => rfl

theorem window_append (early : pos ≤ before.length) (late : before.length ≤ stop)
    (rest : List Char) : ((before ++ rest).drop pos).take (stop - pos) =
      before.drop pos ++ rest.take (stop - before.length) := by
  have size : stop - pos = (before.drop pos).length + (stop - before.length) := by
    rw [List.length_drop]
    omega
  rw [List.drop_append_of_le_length early, size, List.take_length_add_append]

/-- After spaces up to the end of the known part. -/
theorem capturesUpTo_of_spaces (early : pos ≤ before.length)
    (spaces : ∀ c ∈ before.drop pos, isSpace c = true) : CapturesUpTo before pos := by
  have captured (rest : List Char) (stop : Nat) (late : before.length ≤ stop) :
      ∃ dash, captureType (before ++ rest) pos stop =
        let start := ((rest.take (stop - before.length)).takeWhile isSpace).length
        let length := typeLength dash 0 (stop - (before.length + start)) (rest.drop start)
        (strip ((rest.drop start).take length), before.length + start + length) := by
    have start : pos + ((before.drop pos).length +
        ((rest.take (stop - before.length)).takeWhile isSpace).length) =
          before.length + ((rest.take (stop - before.length)).takeWhile isSpace).length := by
      rw [List.length_drop]
      omega
    rw [captureType_eq, window_append early late, List.takeWhile_append_of_pos spaces,
      List.length_append, start]
    dsimp only
    rw [List.drop_length_add_append]
    exact ⟨_, rfl⟩
  have ended (rest : List Char) (stop : Nat) (late : before.length ≤ stop)
      (ends : rest = [] ∨ commentLength rest ≠ 0) :
      captureType (before ++ rest) pos stop = (strip [], before.length) := by
    obtain ⟨dash, same⟩ := captured rest stop late
    rw [same, takeWhile_isSpace_ended ends]
    simp only [List.length_nil, List.drop_zero, typeLength_ended ends, List.take_zero,
      Nat.add_zero]
  have alone := ended [] before.length (Nat.le_refl _) (.inl rfl)
  rw [List.append_nil] at alone
  refine ⟨fun rest stop late ends => by rw [ended rest stop late ends, alone],
    fun rest stop late inside => ?_⟩
  obtain ⟨dash, same⟩ := captured rest stop late
  rw [same] at inside ⊢
  dsimp only at inside ⊢
  generalize typeLength dash 0 _ _ = length at inside ⊢
  obtain rfl : length = 0 := by omega
  rw [List.take_zero, alone]

/-- An annotation that starts in the known part, at `start`. -/
structure Annotation (before : List Char) (pos start : Nat) (type : List Char) : Prop where
  size : start + type.length = before.length
  nonempty : type ≠ []
  suffix : type <:+ before
  captured : ∀ rest stop, before.length ≤ stop → captureType (before ++ rest) pos stop =
    let length := typeLength (decide (0 < start) && before[start - 1]? == some '-') 0
      (stop - start) (type ++ rest)
    (strip ((type ++ rest).take length), start + length)

theorem exists_known (early : pos ≤ before.length)
    (solid : ∃ c ∈ before.drop pos, isSpace c = false) :
    ∃ start type, Annotation before pos start type := by
  obtain ⟨c, member, kept⟩ := solid
  have whole := @List.takeWhile_append_dropWhile _ isSpace (before.drop pos)
  have nonempty : (before.drop pos).dropWhile isSpace ≠ [] :=
    List.ne_nil_of_mem (mem_dropWhile member kept)
  generalize runs : (before.drop pos).takeWhile isSpace = spaces at whole
  generalize (before.drop pos).dropWhile isSpace = type at whole nonempty
  have size := congrArg List.length whole
  rw [List.length_append, List.length_drop] at size
  have positive := List.length_pos_iff.mpr nonempty
  have known : before.drop (pos + spaces.length) = type := by
    rw [← List.drop_drop, ← whole, List.drop_left]
  refine ⟨pos + spaces.length, type, by omega, nonempty, known ▸ List.drop_suffix _ before,
    fun rest stop late => ?_⟩
  have run : (before.drop pos ++ rest.take (stop - before.length)).takeWhile isSpace = spaces := by
    rw [List.takeWhile_append, runs, if_neg]
    rw [List.length_drop]
    omega
  rw [captureType_eq, window_append early late, run]
  dsimp only
  rw [dash_append (by omega), List.drop_append_of_le_length (by omega), known]

theorem Annotation.capturesUpTo {start : Nat} {type : List Char}
    (known : Annotation before pos start type) (noSlash : before.getLast? ≠ some '/') :
    CapturesUpTo before pos := by
  obtain ⟨size, nonempty, suffix, captured⟩ := known
  have last : type.getLast? ≠ some '/' := by
    obtain ⟨d, ends⟩ := Option.isSome_iff_exists.mp (List.getLast?_isSome.mpr nonempty)
    obtain ⟨front, rfl⟩ := suffix
    rwa [List.getLast?_append, ends, Option.some_or, ← ends] at noSlash
  have alone := captured [] before.length (Nat.le_refl _)
  rw [List.append_nil] at alone
  have room {stop : Nat} (late : before.length ≤ stop) : type.length ≤ stop - start := by omega
  rcases typeLength_append last (decide (0 < start) && before[start - 1]? == some '-') 0 with
    ⟨n, less, same⟩ | ⟨dash, level, same⟩
  · have all (rest : List Char) (stop : Nat) (late : before.length ≤ stop) :
        captureType (before ++ rest) pos stop = captureType before pos before.length := by
      rw [alone, captured rest stop late]
      dsimp only
      rw [same _ _ (room late), same _ _ (room (Nat.le_refl _)),
        List.take_append_of_le_length (Nat.le_of_lt less),
        List.take_append_of_le_length (Nat.le_of_lt less)]
    exact ⟨fun rest stop late _ => all rest stop late,
      fun rest stop late _ => by rw [all rest stop late]⟩
  · -- The whole known part is read, and what follows decides.
    have through (rest : List Char) (stop : Nat) (late : before.length ≤ stop) :
        (captureType (before ++ rest) pos stop).2 =
            before.length + typeLength dash level (stop - start - type.length) rest ∧
          (typeLength dash level (stop - start - type.length) rest = 0 →
            captureType (before ++ rest) pos stop = (strip type, before.length)) := by
      rw [captured rest stop late]
      dsimp only
      rw [same _ _ (room late)]
      refine ⟨by omega, fun ended => ?_⟩
      rw [ended, Nat.zero_add, List.take_left, size]
    have aloneType := (through [] before.length (Nat.le_refl _)).2 rfl
    rw [List.append_nil] at aloneType
    refine ⟨fun rest stop late ended => ?_, fun rest stop late inside => ?_⟩
    · rw [(through rest stop late).2 (typeLength_ended ended), aloneType]
    · obtain ⟨ends, type⟩ := through rest stop late
      rw [type (by omega), aloneType]

theorem capturesUpTo (early : pos ≤ before.length) (noSlash : before.getLast? ≠ some '/') :
    CapturesUpTo before pos := by
  by_cases solid : ∃ c ∈ before.drop pos, isSpace c = false
  · obtain ⟨start, type, known⟩ := exists_known early solid
    exact known.capturesUpTo noSlash
  · refine capturesUpTo_of_spaces early fun c member => ?_
    exact (Bool.not_eq_false _).mp fun other => solid ⟨c, member, other⟩

end CaptureType

end DartBindings.Source

import DartBindings.Proofs.Declaration.Suffix
import DartBindings.Proofs.Source.Gap

/-!
A text with a comment put into it. Readers of the text and of the commented text stay in step:
before the comment they stand at the same offset, and after it as much later as it is long.
-/

set_option autoImplicit false

namespace DartBindings.Declaration

open Text Source

/-- A text in two parts, and a comment that may be put between them. -/
structure Seam where
  before : List Char
  comment : List Char
  after : List Char
  isComment : IsComment comment

def Seam.plain (seam : Seam) : List Char :=
  seam.before ++ seam.after

def Seam.commented (seam : Seam) : List Char :=
  seam.before ++ (seam.comment ++ seam.after)

/-- What may follow the first part: the second one, or a comment. -/
def Seam.follow (seam : Seam) (c : Char) : Prop :=
  Starts seam.after c ∨ c = '/'

/-- Offsets at which readers of the two texts are in step. Where the comment stands, the reader
of the commented text may have passed it. -/
def Seam.At (seam : Seam) (pos other : Nat) : Prop :=
  (pos ≤ seam.before.length ∧ other = pos) ∨
    (seam.before.length ≤ pos ∧ other = pos + seam.comment.length)

/-- The offset in the commented text of what starts at this offset. -/
def Seam.start (seam : Seam) (pos : Nat) : Nat :=
  if pos < seam.before.length then pos else pos + seam.comment.length

/-- The offset in the commented text of what stops at this offset. -/
def Seam.stop (seam : Seam) (pos : Nat) : Nat :=
  if pos ≤ seam.before.length then pos else pos + seam.comment.length

def Seam.token (seam : Seam) (token : Token) : Token :=
  { token with start := seam.start token.start, stop := seam.stop token.stop }

/-- The tokens of the text go on at this offset, and those before the comment are whole. -/
structure Seam.Fair (seam : Seam) (pos : Nat) : Prop where
  stretch : ∃ spellings, Stretch seam.follow (seam.before.drop pos) spellings
  chain : ∃ earlier, tokens seam.plain 0 seam.plain.length =
    earlier ++ tokens seam.plain pos seam.plain.length

/-- A reader may stand at this offset in a window that ends at `stop`. -/
structure Seam.Stands (seam : Seam) (pos stop : Nat) : Prop where
  fair : pos ≤ seam.before.length → seam.Fair pos
  fairStop : stop ≤ seam.before.length → seam.Fair stop
  /-- If the window ends before the comment, it ends between tokens. -/
  window : stop < seam.before.length → ∃ inside spellings,
    seam.before.drop pos = inside ++ seam.before.drop stop ∧
      Stretch (First seam.follow (seam.before.drop stop)) inside spellings

section Seam

variable {seam : Seam} {pos other stop : Nat}

theorem Seam.fits_after (seam : Seam) : Fits seam.follow seam.after :=
  fun _ first => .inl first

theorem Seam.fits_comment (seam : Seam) : Fits seam.follow (seam.comment ++ seam.after) := by
  intro c first
  obtain ⟨d, tail, same⟩ := seam.isComment.exists_cons
  have length := seam.isComment []
  rw [same, List.append_nil, List.length_cons] at length
  rw [same, List.cons_append, List.head?_cons, Option.mem_some_iff] at first
  exact .inr (first ▸ eq_slash_of_commentLength length)

theorem Seam.drop_plain (seam : Seam) (inside : pos ≤ seam.before.length) :
    seam.plain.drop pos = seam.before.drop pos ++ seam.after :=
  List.drop_append_of_le_length inside

theorem Seam.drop_commented (seam : Seam) (inside : pos ≤ seam.before.length) :
    seam.commented.drop pos = seam.before.drop pos ++ (seam.comment ++ seam.after) :=
  List.drop_append_of_le_length inside

theorem Seam.length_commented (seam : Seam) :
    seam.commented.length = seam.plain.length + seam.comment.length := by
  simp only [Seam.commented, Seam.plain, List.length_append]
  omega

/-- After the comment the texts are the same. -/
theorem Seam.drop_later (seam : Seam) (beyond : seam.before.length ≤ pos) :
    seam.commented.drop (pos + seam.comment.length) = seam.plain.drop pos := by
  obtain ⟨more, rfl⟩ := Nat.exists_eq_add_of_le beyond
  have order : seam.before.length + more + seam.comment.length =
      seam.before.length + (seam.comment.length + more) := by omega
  rw [Seam.commented, Seam.plain, List.drop_length_add_append, order,
    List.drop_length_add_append, List.drop_length_add_append]

theorem Seam.nextToken_later (seam : Seam) (beyond : seam.before.length ≤ pos)
    (window : seam.before.length ≤ stop) :
    nextToken seam.commented (pos + seam.comment.length) (stop + seam.comment.length) =
      (nextToken seam.plain pos stop).map (Token.later seam.comment.length) := by
  obtain ⟨more, rfl⟩ := Nat.exists_eq_add_of_le beyond
  obtain ⟨room, rfl⟩ := Nat.exists_eq_add_of_le window
  have plain := nextToken_suffix seam.before seam.after more room
  have commented := nextToken_suffix (seam.before ++ seam.comment) seam.after more room
  rw [List.length_append, List.append_assoc] at commented
  rw [Seam.plain, plain, Option.map_map, Nat.add_right_comm, Nat.add_right_comm _ room]
  refine commented.trans (congrArg (Option.map · _) ?_)
  funext token
  simp only [Function.comp, Token.later]
  congr 1 <;> omega

/-- A window that ends before the comment holds no offset at or after it. -/
theorem Seam.Stands.beyond (stands : seam.Stands pos stop) (beyond : seam.before.length ≤ pos) :
    seam.before.length ≤ stop := by
  by_contra early
  obtain ⟨inside, -, split, -⟩ := stands.window (Nat.lt_of_not_le early)
  have size := congrArg List.length split
  simp only [List.length_append, List.length_drop] at size
  omega

/-- What a reader before the comment reads of the first part in its window, and the rest of that
part. -/
structure Seam.Scope (seam : Seam) (pos stop : Nat) (scope rest : List Char) : Prop where
  split : seam.before.drop pos = scope ++ rest
  stretch : ∃ spellings, Stretch (First seam.follow rest) scope spellings
  later : ∃ spellings, Stretch seam.follow rest spellings
  inside : pos + scope.length ≤ stop
  early : stop < seam.before.length → pos + scope.length = stop
  late : seam.before.length ≤ stop → rest = []

theorem Seam.Stands.scope (stands : seam.Stands pos stop) (early : pos ≤ seam.before.length) :
    ∃ scope rest, seam.Scope pos stop scope rest := by
  have size := @List.length_drop _ pos seam.before
  by_cases window : stop < seam.before.length
  · obtain ⟨scope, spellings, split, stretch⟩ := stands.window window
    have lengths := congrArg List.length split
    simp only [List.length_append, List.length_drop] at lengths
    exact ⟨scope, seam.before.drop stop, split, ⟨spellings, stretch⟩,
      (stands.fairStop (Nat.le_of_lt window)).stretch, by omega, by omega, by omega⟩
  · obtain ⟨spellings, stretch⟩ := (stands.fair early).stretch
    exact ⟨seam.before.drop pos, [], (List.append_nil _).symm, ⟨spellings, stretch⟩, ⟨[], .nil⟩,
      by omega, by omega, fun _ => rfl⟩

/-- A reader may stand wherever whole tokens and trivia have been read. -/
theorem Seam.Stands.advance (stands : seam.Stands pos stop) {scope rest first last : List Char}
    (reads : seam.Scope pos stop scope rest) (early : pos ≤ seam.before.length)
    (split : scope = first ++ last)
    (passed : ∃ spellings, Stretch (First seam.follow (last ++ rest)) first spellings)
    (ahead : ∃ spellings, Stretch (First seam.follow rest) last spellings) :
    seam.Stands (pos + first.length) stop := by
  obtain ⟨_, passed⟩ := passed
  obtain ⟨_, ahead⟩ := ahead
  obtain ⟨_, later⟩ := reads.later
  have whole : seam.before.drop pos = first ++ (last ++ rest) := by
    rw [reads.split, split, List.append_assoc]
  have next : seam.before.drop (pos + first.length) = last ++ rest := by
    rw [← List.drop_drop, whole, List.drop_left]
  refine ⟨fun _ => ⟨?_, ?_⟩, stands.fairStop, ?_⟩
  · rw [next]
    exact ⟨_, ahead.append later⟩
  · obtain ⟨earlier, chain⟩ := (stands.fair early).chain
    have here : seam.plain.drop pos = first ++ ((last ++ rest) ++ seam.after) := by
      rw [seam.drop_plain early, whole, List.append_assoc]
    obtain ⟨between, -, read⟩ := passed.tokens here (seam.fits_after.first (last ++ rest))
    exact ⟨earlier ++ between, by rw [chain, read, List.append_assoc]⟩
  · intro window
    have ends := reads.early window
    have same : rest = seam.before.drop stop := by
      rw [← ends, ← List.drop_drop, reads.split, List.drop_left]
    subst same
    exact ⟨last, _, next, ahead⟩

/-! ## Tokens -/

theorem Seam.start_of_le (seam : Seam) (late : seam.before.length ≤ pos) :
    seam.start pos = pos + seam.comment.length :=
  if_neg (Nat.not_lt.mpr late)

theorem Seam.start_of_lt (seam : Seam) (early : pos < seam.before.length) : seam.start pos = pos :=
  if_pos early

theorem Seam.stop_of_le (seam : Seam) (early : pos ≤ seam.before.length) : seam.stop pos = pos :=
  if_pos early

theorem Seam.stop_of_lt (seam : Seam) (late : seam.before.length < pos) :
    seam.stop pos = pos + seam.comment.length :=
  if_neg (Nat.not_le.mpr late)

theorem Seam.le_start (seam : Seam) (pos : Nat) : pos ≤ seam.start pos := by
  unfold Seam.start
  split <;> omega

theorem Seam.Scope.length_le {scope rest : List Char} (reads : seam.Scope pos stop scope rest)
    (early : pos ≤ seam.before.length) : pos + scope.length ≤ seam.before.length := by
  have size := congrArg List.length reads.split
  simp only [List.length_append, List.length_drop] at size
  omega

theorem Seam.Scope.length_of_late {scope rest : List Char} (reads : seam.Scope pos stop scope rest)
    (early : pos ≤ seam.before.length) (late : seam.before.length ≤ stop) :
    pos + scope.length = seam.before.length := by
  have size := congrArg List.length reads.split
  rw [reads.late late] at size
  simp only [List.append_nil, List.length_drop] at size
  omega

/-- The comment is passed over. -/
theorem Seam.skip_comment (seam : Seam) (stop : Nat) :
    nextToken seam.commented seam.before.length stop =
      nextToken seam.commented (seam.before.length + seam.comment.length) stop := by
  have alone : Stretch seam.follow (seam.comment ++ []) [] := .comment seam.isComment .nil
  rw [List.append_nil] at alone
  exact alone.skip List.drop_left stop

/-- Trivia that a window holds is passed over. -/
theorem Seam.Scope.skip {scope rest : List Char} (reads : seam.Scope pos stop scope rest)
    (trivia : Stretch (First seam.follow rest) scope []) (early : pos ≤ seam.before.length)
    (stop : Nat) :
    nextToken seam.plain pos stop = nextToken seam.plain (pos + scope.length) stop ∧
      nextToken seam.commented pos stop = nextToken seam.commented (pos + scope.length) stop := by
  have plain := seam.drop_plain early
  have commented := seam.drop_commented early
  rw [reads.split, List.append_assoc] at plain commented
  exact ⟨trivia.skip plain stop, trivia.skip commented stop⟩

theorem nextToken_of_le {text : List Char} (ended : stop ≤ pos) :
    nextToken text pos stop = none := by
  cases read : nextToken text pos stop with
  | none => rfl
  | some token =>
      have := nextToken_bounds read
      omega

/-- Readers in step read the same token. -/
theorem Seam.Stands.nextToken (stands : seam.Stands pos stop) (matched : seam.At pos other) :
    nextToken seam.commented other (seam.start stop) =
      (nextToken seam.plain pos stop).map seam.token := by
  have later {pos : Nat} (late : seam.before.length ≤ pos) (window : seam.before.length ≤ stop) :
      Source.nextToken seam.commented (pos + seam.comment.length) (seam.start stop) =
        (Source.nextToken seam.plain pos stop).map seam.token := by
    rw [seam.start_of_le window, seam.nextToken_later late window]
    cases read : Source.nextToken seam.plain pos stop with
    | none => rfl
    | some token =>
        have bounds := nextToken_bounds read
        have startEq : seam.start token.start = token.start + seam.comment.length :=
          seam.start_of_le (by omega)
        have stopEq : seam.stop token.stop = token.stop + seam.comment.length :=
          seam.stop_of_lt (by omega)
        simp only [Option.map_some, Token.later, Seam.token, startEq, stopEq, Nat.add_comm]
  rcases matched with ⟨early, rfl⟩ | ⟨late, rfl⟩
  · obtain ⟨scope, rest, reads⟩ := stands.scope early
    obtain ⟨spellings, stretch⟩ := reads.stretch
    have bound := reads.length_le early
    cases spellings with
    | nil =>
        rw [(reads.skip stretch early stop).1, (reads.skip stretch early (seam.start stop)).2]
        by_cases window : stop < seam.before.length
        · have ended := Nat.le_of_eq (reads.early window).symm
          rw [nextToken_of_le ended, seam.start_of_lt window, nextToken_of_le ended]
          rfl
        · have late := Nat.le_of_not_lt window
          rw [reads.length_of_late early late, ← later (Nat.le_refl _) late]
          exact seam.skip_comment _
    | cons spelling spellings =>
        obtain ⟨trivia, token, after, rfl, before, lexed, -⟩ := stretch.split
        have plain := seam.drop_plain early
        have commented := seam.drop_commented early
        rw [reads.split, List.append_assoc _ rest] at plain commented
        have size := List.length_pos_iff.mpr lexed.nonempty
        have inside := reads.inside
        have window := seam.le_start stop
        simp only [List.length_append] at bound inside
        have startEq : seam.start (other + trivia.length) = other + trivia.length :=
          seam.start_of_lt (by omega)
        have stopEq : seam.stop (other + trivia.length + token.length) =
            other + trivia.length + token.length := seam.stop_of_le (by omega)
        rw [lexed.nextToken before plain (seam.fits_after.first rest) (by omega),
          lexed.nextToken before commented (seam.fits_comment.first rest) (by omega)]
        simp only [Option.map_some, Seam.token, startEq, stopEq]
  · exact later late (stands.beyond late)

/-- A token that starts before the comment, in what a reader reads there. -/
structure Seam.Reading (seam : Seam) (pos stop : Nat) (token : Token)
    (trivia text after rest : List Char) : Prop where
  scope : seam.Scope pos stop (trivia ++ (text ++ after)) rest
  before : Stretch (First (First seam.follow rest) (text ++ after)) trivia []
  lexed : Lexed (First (First seam.follow rest) after) text token.spelling
  later : ∃ spellings, Stretch (First seam.follow rest) after spellings
  start : token.start = pos + trivia.length
  stop : token.stop = pos + trivia.length + text.length

theorem Seam.Stands.reading (stands : seam.Stands pos stop) {token : Token}
    (read : Source.nextToken seam.plain pos stop = some token)
    (early : token.start < seam.before.length) :
    ∃ trivia text after rest, seam.Reading pos stop token trivia text after rest := by
  have bounds := nextToken_bounds read
  have here : pos ≤ seam.before.length := by omega
  obtain ⟨scope, rest, reads⟩ := stands.scope here
  obtain ⟨spellings, stretch⟩ := reads.stretch
  cases spellings with
  | nil =>
      rw [(reads.skip stretch here stop).1] at read
      have beyond := nextToken_bounds read
      by_cases window : stop < seam.before.length
      · have := reads.early window
        omega
      · have := reads.length_of_late here (Nat.le_of_not_lt window)
        omega
  | cons spelling spellings =>
      obtain ⟨trivia, text, after, rfl, before, lexed, later⟩ := stretch.split
      have plain := seam.drop_plain here
      rw [reads.split, List.append_assoc _ rest] at plain
      have inside := reads.inside
      simp only [List.length_append] at inside
      rw [lexed.nextToken before plain (seam.fits_after.first rest) (by omega)] at read
      cases read
      exact ⟨trivia, text, after, rest, reads, before, lexed, ⟨_, later⟩, rfl, rfl⟩

theorem Seam.Stands.late (stands : seam.Stands pos stop) {next : Nat}
    (late : seam.before.length < next) (window : seam.before.length ≤ stop) :
    seam.Stands next stop :=
  ⟨fun early => absurd late (Nat.not_lt.mpr early), stands.fairStop,
    fun early => absurd window (Nat.not_le.mpr early)⟩

theorem Seam.at_stop (seam : Seam) (pos : Nat) : seam.At pos (seam.stop pos) := by
  unfold Seam.At Seam.stop
  split <;> omega

theorem Seam.at_start (seam : Seam) (pos : Nat) : seam.At pos (seam.start pos) := by
  unfold Seam.At Seam.start
  split <;> omega

/-- After a token a reader may stand. -/
theorem Seam.Stands.afterToken (stands : seam.Stands pos stop) {token : Token}
    (read : Source.nextToken seam.plain pos stop = some token) : seam.Stands token.stop stop := by
  have bounds := nextToken_bounds read
  by_cases early : token.start < seam.before.length
  · obtain ⟨trivia, text, after, rest, reading⟩ := stands.reading read early
    have there : token.stop = pos + (trivia ++ text).length := by
      rw [reading.stop, List.length_append, Nat.add_assoc]
    rw [there]
    refine stands.advance reading.scope (by omega) (List.append_assoc _ _ _).symm ?_ reading.later
    have alone : Stretch (First seam.follow (after ++ rest)) (text ++ []) [token.spelling] :=
      .token (reading.lexed.mono fun c => (First.append seam.follow after rest c).mp) .nil
    rw [List.append_nil] at alone
    refine ⟨_, (reading.before.mono fun c next => ?_).append alone⟩
    rw [← First.append] at next ⊢
    rwa [List.append_assoc]
  · refine stands.late (by omega) ?_
    by_contra window
    exact absurd (Nat.lt_of_not_le window) (by omega)

/-- A token that does not pass the comment is one of all the tokens of the text. -/
theorem Seam.Stands.chain_token (stands : seam.Stands pos stop) {token : Token}
    (read : Source.nextToken seam.plain pos stop = some token)
    (early : token.stop ≤ seam.before.length) :
    ∃ earlier, tokens seam.plain 0 seam.plain.length =
      earlier ++ token :: tokens seam.plain token.stop seam.plain.length := by
  have bounds := nextToken_bounds read
  have here : pos ≤ seam.before.length := by omega
  obtain ⟨trivia, text, after, rest, reading⟩ := stands.reading read (by omega)
  obtain ⟨earlier, chain⟩ := (stands.fair here).chain
  refine ⟨earlier, chain.trans (congrArg (earlier ++ ·) (tokens_of_some ?_))⟩
  have plain := seam.drop_plain here
  rw [reading.scope.split, List.append_assoc _ rest] at plain
  have whole : seam.before.length ≤ seam.plain.length := by
    rw [Seam.plain, List.length_append]
    omega
  have stopEq := reading.stop
  rw [reading.lexed.nextToken reading.before plain (seam.fits_after.first rest) (by omega)]
  rw [← stopEq, ← reading.start]
  rfl

end Seam

end DartBindings.Declaration

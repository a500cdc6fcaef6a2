import DartBindings.Text.Character
import DartBindings.Text.Raw

/-!
Options: what the arguments of a command ask for.

All arguments are classified first: an option, possibly cut short or joined with its value or
with further options of one letter; an argument that looks like an option and is none; or a plain
one. Then the options are read from left to right. Plain arguments that no option takes as its
value, and all from two dashes on, are left over and refused at the end; help is given at once.
-/

set_option autoImplicit false

namespace DartBindings.CommandLine

open Text

inductive Purpose where
  | help
  | config
  | projectRoot
  | kotlin
  | swift
  | output
  | channel
  | eventBase
  | ignoreMissing
  | quiet
  deriving DecidableEq, Repr

structure Flag where
  spellings : List String
  purpose : Purpose
  takesValue : Bool
  deriving DecidableEq, Repr

/-- The options of the command, in the order in which the help lists them. -/
def flags : List Flag := [
  ⟨["-h", "--help"], .help, false⟩,
  ⟨["-C", "--config"], .config, true⟩,
  ⟨["--project-root"], .projectRoot, true⟩,
  ⟨["--kotlin"], .kotlin, true⟩,
  ⟨["--swift"], .swift, true⟩,
  ⟨["-o", "--output"], .output, true⟩,
  ⟨["--channel"], .channel, true⟩,
  ⟨["--event-prefix"], .eventBase, true⟩,
  ⟨["--ignore-missing"], .ignoreMissing, false⟩,
  ⟨["-q", "--quiet"], .quiet, false⟩]

def spelledFlags : List (String × Flag) :=
  flags.flatMap fun flag => flag.spellings.map fun spelling => (spelling, flag)

inductive UsageError where
  | ambiguous (argument : RawText) (spellings : List String)
  | missingValue (flag : Flag)
  | unwantedValue (flag : Flag) (value : RawText)
  | unrecognized (arguments : List RawText)
  deriving DecidableEq, Repr

def UsageError.message : UsageError → RawText
  | .ambiguous argument spellings =>
    RawText.ofString "ambiguous option: " ++ argument
      ++ RawText.ofString (" could match " ++ ", ".intercalate spellings)
  | .missingValue flag =>
    "argument " ++ "/".intercalate flag.spellings ++ ": expected one argument"
  | .unwantedValue flag value =>
    "argument " ++ "/".intercalate flag.spellings ++ ": ignored explicit argument " ++ quote value
  | .unrecognized arguments =>
    RawText.ofString "unrecognized arguments: " ++ [.char ' '].intercalate arguments

inductive Shape where
  | plain
  /-- An option, spelled by one letter or by a word, and the text joined to it. -/
  | option (flag : Flag) (isLetter : Bool) (joined : Option RawText)
  | unknownOption
  /-- Two dashes: all that follows is plain, and no value. -/
  | separator
  deriving DecidableEq, Repr

def flagOf? (text : RawText) : Option Flag :=
  (spelledFlags.find? fun (spelling, _) => RawText.ofString spelling == text).map (·.2)

/-- A text cut at its first equals sign. -/
def cutEquals (text : RawText) : RawText × Option RawText :=
  let first := text.takeWhile (· != .char '=')
  match text.drop first.length with
  | [] => (first, none)
  | _ :: value => (first, some value)

/-- Whether a text is a negative number: a dash, and digits with at most one full stop, which
digits follow. A line feed at the end makes no difference. -/
def isNegativeNumber (text : RawText) : Bool :=
  let isDigit (point : CodePoint) := point.char?.any isDecimal
  match text with
  | .char '-' :: rest =>
    let rest := if rest.getLast? == some (.char '\n') then rest.dropLast else rest
    let whole := rest.takeWhile isDigit
    match rest.drop whole.length with
    | [] => !whole.isEmpty
    | .char '.' :: fraction => !fraction.isEmpty && fraction.all isDigit
    | _ => false
  | _ => false

def isLetterSpelling (spelling : RawText) : Bool :=
  spelling[1]? != some (.char '-')

/-- The spellings that an argument of two dashes may be cut short from, or the letter that an
argument of one dash starts with; each with its option and the text joined to it. -/
def candidates (text : RawText) : List (String × Flag × Option RawText) :=
  match text with
  | .char '-' :: .char '-' :: _ =>
    let (start, value) := cutEquals text
    (spelledFlags.filter fun (spelling, _) => start.isPrefixOf (RawText.ofString spelling)).map
      fun (spelling, flag) => (spelling, flag, value)
  | .char '-' :: letter :: value =>
    (spelledFlags.filter fun (spelling, _) =>
      RawText.ofString spelling == [.char '-', letter]).map
      fun (spelling, flag) => (spelling, flag, some value)
  | _ => []

/-- The class of an argument that is not two dashes. -/
def shape (text : RawText) : Except UsageError Shape :=
  if text.head? != some (.char '-') then .ok .plain
  else
    match flagOf? text with
    | some flag => .ok (.option flag (isLetterSpelling text) none)
    | none =>
      if text.length == 1 then .ok .plain
      else
        let (start, value) := cutEquals text
        match value.bind fun value => (flagOf? start).map fun flag => (flag, value) with
        | some (flag, value) => .ok (.option flag (isLetterSpelling start) (some value))
        | none =>
          match candidates text with
          | [(spelling, flag, joined)] =>
            .ok (.option flag (isLetterSpelling spelling) joined)
          | [] =>
            if isNegativeNumber text || text.contains (.char ' ') then .ok .plain
            else .ok .unknownOption
          | several => .error (.ambiguous text (several.map (·.1)))

def shapes : List RawText → Except UsageError (List (RawText × Shape))
  | [] => .ok []
  | argument :: rest =>
    if argument == "--" then
      .ok ((argument, .separator) :: rest.map fun argument => (argument, .plain))
    else do
      let first ← shape argument
      return (argument, first) :: (← shapes rest)

structure Options where
  config : Option RawText
  projectRoot : Option RawText
  kotlin : Option RawText
  swift : Option RawText
  output : Option RawText
  channel : Option RawText
  eventBase : Option RawText
  ignoreMissing : Bool
  quiet : Bool
  deriving DecidableEq, Repr

def Options.none : Options where
  config := .none
  projectRoot := .none
  kotlin := .none
  swift := .none
  output := .none
  channel := .none
  eventBase := .none
  ignoreMissing := false
  quiet := false

/-- What a value stands for. Two dashes are dropped from the texts that are a value: what is left
is no text but an empty list, which states nothing, and which is written out as such where a text
is put before others. -/
def valueText (purpose : Purpose) (value : RawText) : RawText :=
  if value == "--" then if purpose == .eventBase then "[]" else [] else value

/-- The options with one more given; of several values the last counts. -/
def Options.set (options : Options) (purpose : Purpose) (value : RawText) : Options :=
  let value := valueText purpose value
  match purpose with
  | .help => options
  | .config => { options with config := some value }
  | .projectRoot => { options with projectRoot := some value }
  | .kotlin => { options with kotlin := some value }
  | .swift => { options with swift := some value }
  | .output => { options with output := some value }
  | .channel => { options with channel := some value }
  | .eventBase => { options with eventBase := some value }
  | .ignoreMissing => { options with ignoreMissing := true }
  | .quiet => { options with quiet := true }

/-- What a command is to do. -/
inductive Request where
  | help
  | run (options : Options)
  deriving DecidableEq, Repr

/-- What one argument asks for: options that are complete in it, and at its end an option that
takes the next argument as its value. -/
structure Group where
  complete : List (Purpose × RawText)
  pending : Option Flag
  deriving DecidableEq, Repr

def Group.cons (purpose : Purpose) (value : RawText) (group : Group) : Group :=
  { group with complete := (purpose, value) :: group.complete }

/-- The group that a flag makes with nothing joined to it. -/
def Flag.alone (flag : Flag) : Group :=
  if flag.takesValue then ⟨[], some flag⟩ else ⟨[(flag.purpose, [])], none⟩

/-- The group of `flag`, which takes no value, and of the letters joined to it. Each letter is an
option, and what follows one that takes a value is its value, an equals sign not excepted. -/
def letterGroup (flag : Flag) : RawText → Except UsageError Group
  | [] => .ok flag.alone
  | letter :: rest =>
    match flagOf? [.char '-', letter] with
    | none => .error (.unwantedValue flag (letter :: rest))
    | some next =>
      if next.takesValue && !rest.isEmpty then
        .ok ⟨[(flag.purpose, []), (next.purpose, rest)], none⟩
      else if next.takesValue then .ok ⟨[(flag.purpose, [])], some next⟩
      else (letterGroup next rest).map (Group.cons flag.purpose [])

/-- The group that an option and the text joined to it make. -/
def group (flag : Flag) (isLetter : Bool) : Option RawText → Except UsageError Group
  | none => .ok flag.alone
  | some joined =>
    if flag.takesValue then .ok ⟨[(flag.purpose, joined)], none⟩
    else if isLetter && !joined.isEmpty then letterGroup flag joined
    else .error (.unwantedValue flag joined)

/-- The options with those that are complete in a group, unless one asks for help. -/
def Options.setAll (options : Options) : List (Purpose × RawText) → Request
  | [] => .run options
  | (purpose, value) :: rest =>
    if purpose == .help then .help else (options.set purpose value).setAll rest

/-- Reads classified arguments. `leftover` are the arguments that no option has taken. -/
def readShapes (options : Options) (leftover : List RawText) :
    List (RawText × Shape) → Except UsageError Request
  | [] =>
    if leftover.isEmpty then .ok (.run options) else .error (.unrecognized leftover)
  | (argument, .plain) :: rest | (argument, .unknownOption) :: rest
  | (argument, .separator) :: rest => readShapes options (leftover ++ [argument]) rest
  | (_, .option flag isLetter joined) :: rest =>
    match group flag isLetter joined with
    | .error error => .error error
    | .ok ⟨complete, .none⟩ =>
      match options.setAll complete with
      | .help => .ok .help
      | .run options => readShapes options leftover rest
    | .ok ⟨complete, some pending⟩ =>
      match rest with
      | (value, .plain) :: rest =>
        match options.setAll (complete ++ [(pending.purpose, value)]) with
        | .help => .ok .help
        | .run options => readShapes options leftover rest
      | _ => .error (.missingValue pending)

/-- What the arguments ask for. -/
def readArguments (arguments : List RawText) : Except UsageError Request :=
  (shapes arguments).bind (readShapes .none [])

end DartBindings.CommandLine

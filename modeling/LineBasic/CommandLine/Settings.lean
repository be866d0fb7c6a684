import LineBasic.CommandLine.Argument

/-!
# Settings

The arguments of a command line, taken one after the other, settle what a run
does. The first operand is the source. What cannot be used is collected and
refused at the end, unless a flag asks for help before.
-/

namespace LineBasic

/-- What a run is asked to do. -/
structure Settings where
  source : Option String
  isLiteral : Bool
  strict : Bool
  verbose : Bool
  grammar : Bool
  deriving DecidableEq, Repr

/-- Why arguments settle nothing. -/
inductive Interruption
  /-- Help is asked for. -/
  | help
  /-- There is a mistake. -/
  | usage (error : UsageError)
  deriving DecidableEq, Repr

namespace Settings

/-- Without arguments the program on standard input is checked. -/
def initial : Settings := ⟨none, false, false, false, false⟩

/-- The settings after a flag. -/
def apply (s : Settings) : Flag → Except Interruption Settings
  | .help => .error .help
  | .literal => .ok { s with isLiteral := true }
  | .strict => .ok { s with strict := true }
  | .verbose => .ok { s with verbose := true }
  | .grammar => .ok { s with grammar := true }

end Settings

/-- The flags that a flag of one letter and the letters after it stand for. From
the first letter on that is no flag, the rest is a value of the flag before it,
and no flag takes one. -/
def splitCluster (flag : Flag) : List Char → Except UsageError (List Flag)
  | [] => .ok [flag]
  | c :: rest =>
    match Flag.ofLetter? c with
    | none => .error (.unwantedValue flag (String.ofList (c :: rest)))
    | some next => (splitCluster next rest).map (flag :: ·)

/-- How far the arguments have been taken: the settings so far, the arguments
left over, and whether the last argument was the source. -/
structure Progress where
  settings : Settings
  extras : List String
  afterSource : Bool
  deriving DecidableEq, Repr

namespace Progress

/-- Take flags one after the other. -/
def takeFlags (p : Progress) (flags : List Flag) : Except Interruption Progress := do
  let settings ← flags.foldlM Settings.apply p.settings
  return ⟨settings, p.extras, false⟩

/-- Take one argument. Two dashes vanish as long as there is no source, and right
after it; anywhere else they are one argument too many. -/
def take (p : Progress) : Argument → Except Interruption Progress
  | .operand text =>
    if p.settings.source.isNone then
      .ok ⟨{ p.settings with source := some text }, p.extras, true⟩
    else .ok ⟨p.settings, p.extras ++ [text], false⟩
  | .flag flag none => p.takeFlags [flag]
  | .flag flag (some value) => .error (.usage (.unwantedValue flag value))
  | .cluster flag rest =>
    -- a letter that is no flag is found before any flag acts
    match splitCluster flag rest with
    | .error e => .error (.usage e)
    | .ok flags => p.takeFlags flags
  | .unknown text => .ok ⟨p.settings, p.extras ++ [text], false⟩
  | .separator =>
    if p.settings.source.isNone || p.afterSource then .ok { p with afterSource := false }
    else .ok ⟨p.settings, p.extras ++ ["--"], false⟩

end Progress

namespace Settings

/-- The settings that arguments ask for. -/
def ofArguments (texts : List String) : Except Interruption Settings :=
  match Argument.ofTexts texts with
  | .error e => .error (.usage e)
  | .ok arguments => do
    let p ← arguments.foldlM Progress.take ⟨initial, [], false⟩
    -- a plea for help on the way comes before what is left over
    if p.extras.isEmpty then .ok p.settings else .error (.usage (.unrecognized p.extras))

end Settings

end LineBasic

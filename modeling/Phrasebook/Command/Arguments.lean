import Phrasebook.Command.Packages
import Phrasebook.Text.Quoted

/-!
# Command lines

A command line names a command and gives it arguments and options. Options may stand anywhere
behind the name of the command; of options that contradict each other the last one counts. A lone
double dash ends the options. Short options may be written together.
-/

namespace Phrasebook.Command

/-- Why a command line asks for no command. -/
inductive Refusal where
  /-- It asks for help. -/
  | help
  /-- An unknown command or option, or too few or too many arguments. -/
  | usage
  /-- An option at the end of the line without the value that it takes. -/
  | missingValue (option : Text)
  /-- An option that takes no value, with one. -/
  | needlessValue (option : Text)
  deriving DecidableEq, Repr

inductive Setting where
  | strict (on : Bool)
  | format (name : Text)
  | verbose
  | help
  deriving DecidableEq, Repr

/-- What an option is: a switch, or the taker of a value. -/
inductive OptionKind where
  | switch (setting : Setting)
  | valued (setting : Text → Setting)

structure Options where
  long : List (Text × OptionKind)
  short : List (CodePoint × Setting)

def helpOption : List (Text × OptionKind) :=
  [("--help".toText, .switch .help)]

def reportOptions : List (Text × OptionKind) :=
  [("--format".toText, .valued .format), ("--verbose".toText, .switch .verbose)]

def strictOptions : List (Text × OptionKind) :=
  [("--strict".toText, .switch (.strict true)), ("--lenient".toText, .switch (.strict false))]

def shortSettings (o : Options) (letters : Text) : Except Refusal (List Setting) :=
  letters.mapM fun c =>
    match o.short.lookup c with
    | some s => .ok s
    | none => .error .usage

def isOption : Text → Bool
  | '-' :: _ :: _ => true
  | _ => false

/-- The name of an option, and the value written behind an equals sign. -/
def splitValue (arg : Text) : Text × Option Text :=
  match arg.span (· ≠ char '=') with
  | (name, []) => (name, none)
  | (name, _ :: value) => (name, some value)

/-- The settings and the arguments of a command line, in order. -/
def readArguments (o : Options) : List Text → Except Refusal (List Setting × List Text)
  | [] => .ok ([], [])
  | arg :: rest =>
    if arg = "--".toText then .ok ([], rest)
    else if isOption arg then
      let (name, value) := splitValue arg
      match o.long.lookup name, value with
      | some (.switch s), none => do
        let (ss, as) ← readArguments o rest
        .ok (s :: ss, as)
      | some (.switch _), some _ => .error (.needlessValue name)
      | some (.valued f), some v => do
        let (ss, as) ← readArguments o rest
        .ok (f v :: ss, as)
      | some (.valued f), none =>
        match rest with
        | [] => .error (.missingValue name)
        | v :: rest => do
          let (ss, as) ← readArguments o rest
          .ok (f v :: ss, as)
      | none, _ =>
        if arg.take 2 = "--".toText then .error .usage
        else do
          let more ← shortSettings o (arg.drop 1)
          let (ss, as) ← readArguments o rest
          .ok (more ++ ss, as)
    else do
      let (ss, as) ← readArguments o rest
      .ok (ss, arg :: as)

/-- Whether errors are strict: by the last setting, and otherwise not. -/
def isStrict (ss : List Setting) : Bool :=
  ss.foldl (fun b s => match s with
    | .strict on => on
    | _ => b) false

/-- The format: by the last setting, and otherwise text. -/
def formatOf (ss : List Setting) : Text :=
  ss.foldl (fun b s => match s with
    | .format name => name
    | _ => b) "text".toText

def onlyArgument : List Text → Except Refusal Text
  | [path] => .ok path
  | _ => .error .usage

/-- What the arguments of a command ask for. Help goes before all else. -/
def Invocation.ofArguments (o : Options) (args : List Text)
    (make : List Setting → List Text → Except Refusal Invocation) : Except Refusal Invocation := do
  let (ss, as) ← readArguments o args
  if ss.contains .help then .error .help else make ss as

def Invocation.ofCommand (name : Text) (args : List Text) : Except Refusal Invocation :=
  let verbose := [(char 'v', Setting.verbose)]
  if name = "generate".toText then
    ofArguments ⟨helpOption ++ reportOptions ++ strictOptions, verbose⟩ args fun ss as => do
      let path ← onlyArgument as
      .ok (.generate path (isStrict ss) (formatOf ss) (ss.contains .verbose))
  else if name = "lint".toText then
    ofArguments ⟨helpOption ++ reportOptions, verbose⟩ args fun ss as => do
      let path ← onlyArgument as
      .ok (.lint path (formatOf ss) (ss.contains .verbose))
  else if name = "stats".toText then
    ofArguments ⟨helpOption, []⟩ args fun _ as => do
      let path ← onlyArgument as
      .ok (.stats path)
  else if name = "expand".toText then
    ofArguments ⟨helpOption, []⟩ args fun _ as =>
      if as = [] then .error .usage else .ok (.expand as)
  else .error .usage

/-- What a command line asks for. Options in front of the command are only those of the program. -/
def Invocation.ofLine : List Text → Except Refusal Invocation
  | [] => .error .help
  | arg :: rest =>
    if arg = "--".toText then
      match rest with
      | [] => .error .usage
      | name :: args => ofCommand name args
    else if isOption arg then
      match splitValue arg with
      | (name, value) =>
        if name = "--help".toText then
          match value with
          | none => .error .help
          | some _ => .error (.needlessValue name)
        else .error .usage
    else ofCommand arg rest

def boxWidth : Nat := 80

/-- A message in a box of its own, as mistakes in the use of an option are shown. -/
def boxed (message : Text) : Text :=
  let bar (n : Nat) : Text := List.replicate n (char '─')
  let title := " Error ".toText
  char '╭' :: char '─' :: title ++ bar (boxWidth - title.length - 3) ++ [char '╮', char '\n'] ++
    char '│' :: char ' ' :: message ++ List.replicate (boxWidth - message.length - 4) (char ' ') ++
    [char ' ', char '│', char '\n'] ++ char '╰' :: bar (boxWidth - 2) ++ [char '╯', char '\n']

def helpText : Text :=
  "Usage: utterances generate|expand|lint|stats ARGS\n".toText

def Refusal.reply : Refusal → Reply
  | help => .done ⟨0, helpText, []⟩
  | usage => .misused
  | missingValue name =>
    .done ⟨2, [], boxed ("Option ".toText ++ Text.quoted name ++ " requires an argument.".toText)⟩
  | needlessValue name =>
    .done ⟨2, [], boxed ("Option ".toText ++ Text.quoted name ++ " does not take a value.".toText)⟩

def readCommandLine (line : List Text) : Except Reply Invocation :=
  (Invocation.ofLine line).mapError Refusal.reply

end Phrasebook.Command

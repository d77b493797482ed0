import ForecastJob.Command

/-!
# The command line

* `Request` : what a command line asks for;
* `Request.ofArgs?` : the request that arguments make, if they make sense.

An option is given once; its value follows it, or stands behind an equals sign. Behind two dashes
there are no more options.
-/

namespace ForecastJob

open Schema (Layout)

/-- What a command line asks for. -/
inductive Request where
  | help
  | version
  | run (c : Command)
  deriving Repr, DecidableEq

namespace Request

/-! ## Arguments -/

/-- What stands behind an option. -/
inductive Arity where
  | nothing
  | word
  | path
  | oneOf (words : List String)
  deriving Repr, DecidableEq

def Arity.admits : Arity → String → Bool
  | nothing, _ => false
  | word, _ => true
  | path, value => !value.isEmpty
  | oneOf words, value => words.contains value

abbrev Options : Type := List (String × Arity)

/-- The options that have been given, with their values, and the path that has been given. -/
structure Given where
  options : List (String × String) := []
  path? : Option String := none
  deriving Repr, DecidableEq

def Given.value? (g : Given) (name : String) : Option String :=
  g.options.lookup name

def Given.has (g : Given) (name : String) : Bool :=
  (g.value? name).isSome

/-- Adds an option, unless it has been given already. -/
def Given.add? (g : Given) (name value : String) : Option Given :=
  if g.has name then none else some { g with options := (name, value) :: g.options }

def Given.addPath? (g : Given) (path : String) : Option Given :=
  if g.path?.isSome || path.isEmpty then none else some { g with path? := some path }

def isOption (arg : String) : Bool :=
  arg.startsWith "-" && arg != "-"

/-- The name of an option and the value behind its equals sign. -/
def splitOption (arg : String) : String × Option String :=
  let cs := arg.toList
  let name := String.ofList (cs.takeWhile (· != '='))
  match cs.dropWhile (· != '=') with
  | [] => (name, none)
  | _ :: value => (name, some (String.ofList value))

/-- Adds the option at the front, and gives the arguments behind it. -/
def takeOption? (options : Options) (arg : String) (rest : List String) (g : Given) :
    Option (Given × List String) := do
  let (name, value?) := splitOption arg
  let arity ← options.lookup name
  match arity, value?, rest with
  | .nothing, none, rest => some (← g.add? name "", rest)
  | arity, some value, rest =>
    if arity.admits value then some (← g.add? name value, rest) else none
  | arity, none, value :: rest =>
    if !isOption value && arity.admits value then some (← g.add? name value, rest) else none
  | _, none, [] => none

/-- The arguments behind an option are some of those that stood behind it. -/
theorem length_le_of_takeOption? {options : Options} {arg : String} {rest left : List String}
    {g g' : Given} (h : takeOption? options arg rest g = some (g', left)) :
    left.length ≤ rest.length := by
  simp only [takeOption?, Option.bind_eq_bind, Option.bind_eq_some_iff] at h
  obtain ⟨arity, _, h⟩ := h
  split at h
  · obtain ⟨_, _, h⟩ := Option.bind_eq_some_iff.1 h
    cases h; exact Nat.le_refl _
  · split at h
    · obtain ⟨_, _, h⟩ := Option.bind_eq_some_iff.1 h
      cases h; exact Nat.le_refl _
    · cases h
  · split at h
    · obtain ⟨_, _, h⟩ := Option.bind_eq_some_iff.1 h
      cases h; exact Nat.le_succ _
    · cases h
  · cases h

def asksHelp (arg : String) : Bool :=
  arg.startsWith "-h" || arg == "--help"

def asksVersion (arg : String) : Bool :=
  arg.startsWith "-V" || arg == "--version"

/-! ## Commands -/

/-- What the arguments of a command give, or that they ask for help. -/
def collect? (options : Options) : List String → Given → Option (Option Given)
  | [], g => some (some g)
  | arg :: rest, g =>
    if arg == "--" then (rest.foldlM Given.addPath? g).map some
    else if asksHelp arg then some none
    else if isOption arg then
      match _ : takeOption? options arg rest g with
      | some (g, left) => collect? options left g
      | none => none
    else (g.addPath? arg).bind (collect? options rest)
  termination_by args => args.length
  decreasing_by
  · exact Nat.lt_succ_of_le (length_le_of_takeOption? ‹_›)
  · exact Nat.lt_succ_self _

/-- The option that every command has. -/
def common : Options := [("--log-level", .word)]

/-- The option that says that a document is a node of a pipeline. -/
def nodeOption : String := "--inside-pipeline"

/-- The option for the directory that data inputs are seen from. -/
def baseOption : String := "--base-path"

def formatOption : String := "--format"

def layout (g : Given) : Layout :=
  if g.has nodeOption then .node else .standalone

def format (g : Given) : Format :=
  if g.value? formatOption = some "toml" then .toml else .yaml

/-- The options of a command, and the command that is made of a path. -/
def command? : String → Option (Options × (Given → String → Command))
  | "render" => some ([(nodeOption, .nothing), (baseOption, .path)],
      fun g path => .render path (layout g) (g.value? baseOption))
  | "import" => some ([(nodeOption, .nothing), (formatOption, .oneOf ["toml", "yaml"])],
      fun g path => .importPayload path (format g) (layout g))
  | "check" => some ([(nodeOption, .nothing)], fun g path => .check path (layout g))
  | _ => none

/-- The arguments name something that there is help on. -/
def isTopic : List String → Bool
  | [] => true
  | [name] => name == "help" || (command? name).isSome
  | _ => false

def ofCommand? (name : String) (args : List String) : Option Request :=
  if name == "help" then if isTopic args then some .help else none
  else do
    let (options, make) ← command? name
    match ← collect? (options ++ common) args {} with
    | none => some .help
    | some g => g.path?.map fun path => .run (make g path)

/-- The request that arguments make, after the options in front of the command. -/
def read? : List String → Given → Option Request
  | [], _ => none
  | arg :: rest, g =>
    if asksVersion arg then some .version
    else if asksHelp arg then some .help
    else if isOption arg then
      match _ : takeOption? common arg rest g with
      | some (g, left) => read? left g
      | none => none
    else ofCommand? arg rest
  termination_by args => args.length
  decreasing_by exact Nat.lt_succ_of_le (length_le_of_takeOption? ‹_›)

/-- The request that arguments make, if they make sense. -/
def ofArgs? (args : List String) : Option Request :=
  read? args {}

/-! ## Texts -/

def versionText : String := "forecast-job 0.1.0\n"

def helpText : String :=
  "Render, import, and check AutoML forecasting job documents\n\n" ++
  "Usage: forecast-job [--log-level LEVEL] COMMAND\n\n" ++
  "Commands:\n" ++
  "  render DOCUMENT [--inside-pipeline] [--base-path DIR]\n" ++
  "  import PAYLOAD [--format toml|yaml] [--inside-pipeline]\n" ++
  "  check DOCUMENT [--inside-pipeline]\n"

end Request

/-! ## Results -/

/-- What the program prints, and the code that it ends with. -/
structure Result where
  code : UInt8
  output : String := ""
  complaint : String := ""
  deriving Repr, DecidableEq

def Result.usage : Result :=
  { code := 2, complaint := "Error: the arguments make no sense\n\n" ++ Request.helpText }

/-- The result of a command, given the text that it reads if there is one. -/
def Command.result (text? : Option String) (c : Command) : Result :=
  match c.run text? with
  | .ok text => { code := 0, output := Command.printed text }
  | .error e => { code := 1, complaint := s!"Error: {e.message}\n" }

end ForecastJob

import SchemaReview.Program
import SchemaReview.Settings.Basic

/-!
# Command.Arguments — what the arguments of the program ask for

Arguments are read from left to right.  The first fault settles the answer, unless a request for
the version or for help comes before it.  Everything after `--` is an operand.
-/

namespace SchemaReview.Command

/-! ### Options and subcommands -/

/-- Options of the program and of its subcommands. -/
inductive Switch where
  | verbose
  | quiet
  | version
  | help
  | detector
  | group
  | disable
  | format
  | config
deriving DecidableEq, Repr

namespace Switch

/-- The name after two hyphens. -/
def long : Switch → String
  | verbose => "verbose"
  | quiet => "quiet"
  | version => "version"
  | help => "help"
  | detector => "detector"
  | group => "group"
  | disable => "disable"
  | format => "format"
  | config => "config"

/-- The letter after one hyphen. -/
def short? : Switch → Option Char
  | verbose => some 'v'
  | quiet => some 'q'
  | version => some 'V'
  | help => some 'h'
  | detector => some 'd'
  | group => some 'g'
  | disable => none
  | format => some 'f'
  | config => some 'c'

/-- The option takes a value. -/
def takesValue : Switch → Bool
  | detector | group | disable | format | config => true
  | verbose | quiet | version | help => false

/-- The options that may stand anywhere. -/
def everywhere : List Switch := [verbose, quiet, version, help]

end Switch

/-- Subcommands of the program. -/
inductive Subcommand where
  /-- Reviews scripts. -/
  | check
  /-- Lists the detectors. -/
  | list
  /-- Shows what a script declares. -/
  | schema
  /-- Shows the table scopes and items of a script. -/
  | scan
deriving DecidableEq, Repr

namespace Subcommand

/-- All subcommands. -/
def all : List Subcommand := [check, list, schema, scan]

/-- The name of a subcommand. -/
def name : Subcommand → String
  | check => "check"
  | list => "list"
  | schema => "schema"
  | scan => "scan"

/-- The subcommand with the given name. -/
def ofName? (s : String) : Option Subcommand := all.find? fun c => c.name = s

/-- The options of a subcommand. -/
def switches : Subcommand → List Switch
  | check => Switch.everywhere ++ [.detector, .group, .disable, .format, .config]
  | schema => Switch.everywhere ++ [.format]
  | list | scan => Switch.everywhere

/-- The names that the format option takes. -/
def formats : Subcommand → List String
  | check => ReportFormat.all.map ReportFormat.name
  | schema => ["human", "json"]
  | list | scan => []

/-- The number of operands that a subcommand takes at most, if there is a limit. -/
def operandLimit? : Subcommand → Option Nat
  | check => none
  | list => some 0
  | schema | scan => some 1

end Subcommand

/-! ### Telling options and operands apart -/

/-- An argument, or two of them when the second is the value of the first. -/
inductive Item where
  | flag (s : Switch)
  | value (s : Switch) (v : String)
  | operand (v : String)
deriving DecidableEq, Repr

/-- How reading ends. -/
inductive Ending where
  /-- All arguments are read. -/
  | finished
  /-- An operand was met where a subcommand is due, with the arguments after it. -/
  | subcommand (name : String) (rest : List String)
  | version
  | help
  | invalid
deriving DecidableEq, Repr

/-- The items up to the end of reading. -/
structure Reading where
  items : List Item
  ending : Ending
deriving DecidableEq, Repr

/-- Items before the others. -/
def Reading.after (items : List Item) (r : Reading) : Reading :=
  { r with items := items ++ r.items }

/-- What comes after an argument with options. -/
inductive Next where
  /-- Any argument. -/
  | any
  /-- The value of an option. -/
  | valueOf (s : Switch)
  /-- Nothing: reading ends. -/
  | stop (e : Ending)
deriving DecidableEq, Repr

/-- What an option without a value does. -/
def flagItem : Switch → List Item × Next
  | .version => ([], .stop .version)
  | .help => ([], .stop .help)
  | s => ([.flag s], .any)

/-- Reads options given by letters.  The rest of the argument is the value of the first one that
takes a value, with an equals sign in between or without. -/
def shortItems (switches : List Switch) : Text → List Item × Next
  | [] => ([], .any)
  | c :: cs =>
    match switches.find? fun s => s.short? = some c with
    | none => ([], .stop .invalid)
    | some s =>
      if s.takesValue then
        match cs with
        | [] => ([], .valueOf s)
        | '=' :: v => ([.value s (String.ofList v)], .any)
        | v => ([.value s (String.ofList v)], .any)
      else
        match flagItem s with
        | (items, .any) =>
          let (more, next) := shortItems switches cs
          (items ++ more, next)
        | stopped => stopped

/-- Reads an option given by its name, with its value after an equals sign if it has one there. -/
def longItem (switches : List Switch) (t : Text) : List Item × Next :=
  let name := t.takeWhile (· ≠ '=')
  match switches.find? fun s => s.long = String.ofList name with
  | none => ([], .stop .invalid)
  | some s =>
    match s.takesValue, t.dropWhile (· ≠ '=') with
    | true, _ :: v => ([.value s (String.ofList v)], .any)
    | true, [] => ([], .valueOf s)
    | false, _ :: _ => ([], .stop .invalid)
    | false, [] => flagItem s

/-- The options in an argument; none when it is an operand or a value. -/
def options? (switches : List Switch) (argument : String) : Option (List Item × Next) :=
  match argument.toList with
  | '-' :: '-' :: cs => some (longItem switches cs)
  | '-' :: c :: cs => some (shortItems switches (c :: cs))
  | _ => none

/-- Reads the arguments after `--`. -/
def readOperands (expectsSubcommand : Bool) (arguments : List String) : Reading :=
  if expectsSubcommand ∧ arguments ≠ [] then ⟨[], .invalid⟩
  else ⟨arguments.map .operand, .finished⟩

/-- Reads arguments, where `awaiting` is the option whose value comes next. -/
def readArguments (switches : List Switch) (expectsSubcommand : Bool) (awaiting : Option Switch) :
    List String → Reading
  | [] => ⟨[], if awaiting.isSome then .invalid else .finished⟩
  | argument :: rest =>
    if argument = "--" then
      if awaiting.isSome then ⟨[], .invalid⟩ else readOperands expectsSubcommand rest
    else
      match options? switches argument, awaiting with
      | some _, some _ => ⟨[], .invalid⟩
      | some (items, next), none =>
        match next with
        | .any => (readArguments switches expectsSubcommand none rest).after items
        | .valueOf s => (readArguments switches expectsSubcommand (some s) rest).after items
        | .stop e => ⟨items, e⟩
      | none, some s =>
        (readArguments switches expectsSubcommand none rest).after [.value s argument]
      | none, none =>
        if expectsSubcommand then ⟨[], .subcommand argument rest⟩
        else (readArguments switches expectsSubcommand none rest).after [.operand argument]

/-! ### What was given -/

/-- What the items amount to. -/
structure Given where
  quiet : Bool := false
  detectors : List String := []
  groups : List String := []
  disable : List String := []
  format : Option String := none
  config : Option String := none
  operands : List String := []
deriving DecidableEq, Repr

/-- Takes an item into account.  It is refused when an option that is allowed once is repeated, a
format is unknown, a path is empty or an operand is superfluous. -/
def Given.add? (formats : List String) (operandLimit : Option Nat) (g : Given) :
    Item → Option Given
  | .flag .quiet => if g.quiet then none else some { g with quiet := true }
  | .flag _ => some g
  | .value .detector v => some { g with detectors := g.detectors ++ [v] }
  | .value .group v => some { g with groups := g.groups ++ [v] }
  | .value .disable v => some { g with disable := g.disable ++ [v] }
  | .value .format v =>
    if g.format.isSome ∨ v ∉ formats then none else some { g with format := some v }
  | .value .config v =>
    if g.config.isSome ∨ v = "" then none else some { g with config := some v }
  | .value _ _ => none
  | .operand v =>
    if v = "" ∨ operandLimit = some g.operands.length then none
    else some { g with operands := g.operands ++ [v] }

/-- A task for the program. -/
inductive Task where
  /-- Review scripts under the given settings, with the configuration file named if one is. -/
  | check (given : Settings) (config : Option String)
  | list
  | schema (file : String) (json : Bool)
  | scan (file : String)
deriving DecidableEq, Repr

/-- What the arguments ask for. -/
inductive Request where
  | run (quiet : Bool) (task : Task)
  /-- The version, under the given program name. -/
  | version (name : String)
  | help
  | invalid
deriving DecidableEq, Repr

/-- The task of a subcommand; `environment` may name a configuration file. -/
def Given.task? (g : Given) (environment : Option String) : Subcommand → Option Task
  | .check =>
    let config := g.config.or environment
    if config = some "" then none
    else
      let settings : Settings :=
        ⟨g.operands, g.detectors, g.groups, g.disable, g.format.bind ReportFormat.ofName?⟩
      some (.check settings config)
  | .list => some .list
  | .schema => g.operands.head?.map fun file => .schema file (g.format = some "json")
  | .scan => g.operands.head?.map .scan

/-- What the arguments after a subcommand ask for. -/
def subcommandRequest (quiet : Bool) (environment : Option String) (c : Subcommand)
    (arguments : List String) : Request :=
  let reading := readArguments c.switches false none arguments
  match reading.items.foldlM (Given.add? c.formats c.operandLimit?) {} with
  | none => .invalid
  | some given =>
    match reading.ending with
    | .finished =>
      match given.task? environment c with
      | some task => .run (quiet || given.quiet) task
      | none => .invalid
    | .version => .version (programName ++ "-" ++ c.name)
    | .help => .help
    | .subcommand _ _ => .invalid
    | .invalid => .invalid

/-- What the arguments ask for; `environment` may name a configuration file. -/
def Request.ofArguments (environment : Option String) (arguments : List String) : Request :=
  let reading := readArguments Switch.everywhere true none arguments
  match reading.items.foldlM (Given.add? [] (some 0)) {} with
  | none => .invalid
  | some given =>
    match reading.ending with
    | .version => .version programName
    | .help => .help
    | .subcommand name rest =>
      match Subcommand.ofName? name with
      | some c => subcommandRequest given.quiet environment c rest
      | none =>
        if name = "help" ∧ rest.length ≤ 1 ∧ rest.all (fun s => (Subcommand.ofName? s).isSome) then
          .help
        else .invalid
    | .finished => .invalid
    | .invalid => .invalid

end SchemaReview.Command

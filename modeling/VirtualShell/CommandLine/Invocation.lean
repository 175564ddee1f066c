/-! # Invocations

What the arguments of the program ask for.  They are read from left to right; the first that does not
fit makes the invocation a misuse, and a question for help or the version is answered at once.
-/

namespace VirtualShell

/-- The options of the program, its flag, and its operand. -/
structure Invocation where
  command : Option String := none
  start : Option String := none
  user : Option String := none
  stateDirectory : Option String := none
  config : Option String := none
  logLevel : Option String := none
  json : Bool := false
  script : Option String := none
deriving DecidableEq, Repr

/-- What the arguments of the program ask for. -/
inductive Demand
  | run (invocation : Invocation)
  | help
  | version
  | misuse
deriving DecidableEq, Repr

namespace Invocation

inductive Setting
  | command
  | start
  | user
  | stateDirectory
  | config
  | logLevel
deriving DecidableEq, Repr

def setting? (name : String) : Option Setting :=
  match name with
  | "cwd" => some .start
  | "user" => some .user
  | "state-dir" => some .stateDirectory
  | "config" => some .config
  | "log-level" => some .logLevel
  | _ => none

/-- A value for an option that may be given once. -/
def once (old : Option String) (value : String) : Option (Option String) :=
  if old.isSome then none else some (some value)

/-- A path for an option or operand that may be given once; a path is not empty. -/
def oncePath (old : Option String) (value : String) : Option (Option String) :=
  if value.isEmpty then none else once old value

/-- The invocation with a value for an option that has none yet. -/
def give (invocation : Invocation) (setting : Setting) (value : String) : Option Invocation :=
  match setting with
  | .command => (once invocation.command value).map ({ invocation with command := · })
  | .start => (once invocation.start value).map ({ invocation with start := · })
  | .user => (once invocation.user value).map ({ invocation with user := · })
  | .stateDirectory =>
    (oncePath invocation.stateDirectory value).map ({ invocation with stateDirectory := · })
  | .config => (oncePath invocation.config value).map ({ invocation with config := · })
  | .logLevel => (once invocation.logLevel value).map ({ invocation with logLevel := · })

def giveScript (invocation : Invocation) (value : String) : Option Invocation :=
  (oncePath invocation.script value).map ({ invocation with script := · })

/-- A word that can be the value of the option before it. -/
def isValue (word : String) : Bool :=
  match word.toList with
  | '-' :: _ :: _ => false
  | _ => true

/-- How one argument is to be understood. -/
inductive Word
  | help
  | version
  | json
  | endOfOptions
  | operand
  /-- An option with its value in the same word. -/
  | valued (setting : Setting) (value : String)
  /-- An option with its value in the next word. -/
  | pending (setting : Setting)
  | unknown

/-- The meaning of a word with two dashes in front, which are left out. -/
def longWord (text : List Char) : Word :=
  let (name, value) := text.span (· ≠ '=')
  match String.ofList name, value with
  | "help", [] => .help
  | "version", [] => .version
  | "json", [] => .json
  | name, value =>
    match setting? name, value with
    | some setting, [] => .pending setting
    | some setting, _ :: value => .valued setting (String.ofList value)
    | none, _ => .unknown

/-- The meaning of an argument before the end of the options. -/
def word (argument : String) : Word :=
  match argument.toList with
  | ['-', '-'] => .endOfOptions
  | '-' :: '-' :: text => longWord text
  | '-' :: 'h' :: _ => .help
  | '-' :: 'V' :: _ => .version
  | ['-', 'c'] => .pending .command
  | '-' :: 'c' :: '=' :: value => .valued .command (String.ofList value)
  | '-' :: 'c' :: value => .valued .command (String.ofList value)
  | '-' :: _ :: _ => .unknown
  | _ => .operand

def readOperands (invocation : Invocation) : List String → Demand
  | [] => .run invocation
  | operand :: rest =>
    match invocation.giveScript operand with
    | some invocation => readOperands invocation rest
    | none => .misuse

def read (invocation : Invocation) : List String → Demand
  | [] => .run invocation
  | argument :: rest =>
    match word argument with
    | .help => .help
    | .version => .version
    | .json => if invocation.json then .misuse else read { invocation with json := true } rest
    | .endOfOptions => readOperands invocation rest
    | .operand =>
      match invocation.giveScript argument with
      | some invocation => read invocation rest
      | none => .misuse
    | .valued setting value =>
      match invocation.give setting value with
      | some invocation => read invocation rest
      | none => .misuse
    | .pending setting =>
      match rest with
      | [] => .misuse
      | value :: rest =>
        match if isValue value then invocation.give setting value else none with
        | some invocation => read invocation rest
        | none => .misuse
    | .unknown => .misuse

end Invocation

def Demand.ofArguments (arguments : List String) : Demand := Invocation.read {} arguments

end VirtualShell

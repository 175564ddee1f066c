import VirtualShell.CommandLine.Invocation
import VirtualShell.Settings.Basic

/-! # The program

The program runs one command, the lines of a script, or the lines of its input in a shell, and prints
what they print.  Everything that it reads and writes on disk is part of the outcome.
-/

namespace VirtualShell

structure Surroundings where
  disk : Disk
  /-- The home directory of the user who runs the program. -/
  home : Option String
  input : List UInt8
  now : Moment

structure Outcome where
  exitCode : Nat
  output : String
  error : String
  disk : Disk

namespace CommandLine

def version : String := "webterm 0.1.0\n"

def help : String := "\n".intercalate [
  "A simulated Unix shell over a persistent virtual filesystem",
  "",
  "Usage: webterm [OPTIONS] [SCRIPT_FILE]",
  "",
  "Arguments:",
  "  [SCRIPT_FILE]  File with one command line per line",
  "",
  "Options:",
  "  -c <COMMAND>                 Execute one command line",
  "      --cwd <CWD>              Starting directory inside the virtual filesystem",
  "      --user <USER>            User name shown in the prompt and by whoami",
  "      --state-dir <STATE_DIR>  Directory for the persisted filesystem, aliases and history (in-memory when omitted)",
  "      --config <CONFIG>        TOML configuration file",
  "      --json                   Output each result as JSON (\x7b\"lines\": [\x7b\"text\", \"style\"\x7d]\x7d)",
  "      --log-level <LOG_LEVEL>  Log filter, e.g. \"debug\" or \"webterm::interpreter=trace\" [default: warn]",
  "  -h, --help                   Print help",
  "  -V, --version                Print version",
  ""]

/-- The text that a tilde as first part of a path stands for the home directory. -/
def expandHome (home : Option String) (path : String) : String :=
  match home, Text.pieces '/' path.toList with
  | some home, ['~'] :: rest =>
    let kept := rest.dropWhile fun part => part.isEmpty || part = ['.']
    let kept := (kept.reverse.dropWhile fun part => part.isEmpty || part = ['.']).reverse
    let rest := "/".intercalate (kept.map String.ofList)
    if home.isEmpty || home.toList.getLast? = some '/' then home ++ rest else home ++ "/" ++ rest
  | _, _ => path

def decode? (bytes : List UInt8) : Option String := String.fromUTF8? ⟨bytes.toArray⟩

/-- The lines of the input, up to the first that is no text. -/
def inputLines (input : List UInt8) : List String :=
  let all := Text.pieces 10 input
  let ended := all.dropLast.map fun bytes =>
    (decode? bytes).map fun line => String.ofList (Text.dropReturn line.toList)
  let last := all.getLastD []
  let lines := ended ++ if last.isEmpty then [] else [decode? last]
  (lines.takeWhile Option.isSome).filterMap id

/-- The characters that clear a screen and put the cursor into its corner. -/
def clearScreen : String := "\x1b[2J\x1b[H"

def outputOf (line : Line) : String :=
  match line.style with
  | .error => ""
  | .clear => clearScreen
  | _ => line.text ++ "\n"

def errorOf (line : Line) : String :=
  match line.style with
  | .error => line.text ++ "\n"
  | _ => ""

def resultOutput (json : Bool) (result : Result) : String :=
  if json then result.toJson.render ++ "\n" else String.join (result.lines.map outputOf)

def resultError (json : Bool) (result : Result) : String :=
  if json then "" else String.join (result.lines.map errorOf)

def execAll (shell : Shell) (lines : List String) : List Result × Shell :=
  let (done, shell) := lines.foldl (fun (done, shell) line =>
    let (result, shell) := shell.exec line
    (result :: done, shell)) ([], shell)
  (done.reverse, shell)

def diskAfter (disk : Disk) (shell : Shell) : Disk :=
  match shell.store with
  | .directory store => store.disk
  | .memory _ => disk

def failure (disk : Disk) (message : String) : Outcome := ⟨1, "", "Error: " ++ message ++ "\n", disk⟩

def outcome (disk : Disk) (json : Bool) (shell : Shell) (lines : List String) : Outcome :=
  let (results, shell) := execAll shell lines
  ⟨if results.any (·.exitCode ≠ 0) then 1 else 0,
    String.join (results.map (resultOutput json)),
    String.join (results.map (resultError json)),
    diskAfter disk shell⟩

def settingsOf (disk : Disk) (path : String) : Except String Settings :=
  match disk.readText path with
  | .error e => .error ("cannot read config file " ++ path ++ ": " ++ e.message)
  | .ok text =>
    match Settings.parse? text with
    | some settings => .ok settings
    | none => .error ("invalid config file " ++ path ++ ": TOML parse error")

/-- The settings that an invocation names, or none at all. -/
def settings (disk : Disk) (invocation : Invocation) : Except String Settings :=
  match invocation.config with
  | none => .ok {}
  | some path => settingsOf disk path

/-- The options of the shell for an invocation. -/
def options (settings : Settings) (invocation : Invocation) : Options :=
  let options := settings.apply {}
  let options := match invocation.user with
    | some user => { options with user, home := "/home/" ++ user }
    | none => options
  { options with start := invocation.start }

/-- The directory in which the state of the shell is saved, if there is one. -/
def stateDirectory (home : Option String) (settings : Settings) (invocation : Invocation) :
    Option String :=
  invocation.stateDirectory.or (settings.stateDirectory.map (expandHome home))

def store (disk : Disk) (directory : Option String) : Except String Store :=
  match directory with
  | none => .ok (.memory .empty)
  | some path =>
    match DirectoryStore.openAt disk path with
    | .ok store => .ok (.directory store)
    | .error e => .error ("cannot open state directory " ++ path ++ ": " ++ e.message)

/-- The lines that an invocation runs, on the disk as it is when the shell has started. -/
def lines (disk : Disk) (input : List UInt8) (invocation : Invocation) : Except String (List String) :=
  match invocation.command, invocation.script with
  | some command, _ => .ok [command]
  | none, none => .ok (inputLines input)
  | none, some path =>
    match disk.readText path with
    | .ok text => .ok (Text.linesOf text)
    | .error e => .error ("Cannot read script file: " ++ path ++ ": " ++ e.message)

/-- The shell of an invocation, when it has started. -/
def openShell (around : Surroundings) (invocation : Invocation) : Except String Shell := do
  let settings ← settings around.disk invocation
  let store ← store around.disk (stateDirectory around.home settings invocation)
  return (Shell.start (options settings invocation) around.now store).1

def runShell (around : Surroundings) (invocation : Invocation) : Outcome :=
  match openShell around invocation with
  | .error message => failure around.disk message
  | .ok shell =>
    let disk := diskAfter around.disk shell
    match lines disk around.input invocation with
    | .error message => failure disk message
    | .ok lines => outcome disk invocation.json shell lines

def run (around : Surroundings) (arguments : List String) : Outcome :=
  match Demand.ofArguments arguments with
  | .help => ⟨0, help, "", around.disk⟩
  | .version => ⟨0, version, "", around.disk⟩
  | .misuse => ⟨2, "", "error: invalid arguments; for more information, try '--help'.\n", around.disk⟩
  | .run invocation => runShell around invocation

/-! ## What a run needs from outside -/

/-- An invocation reads its lines from the input. -/
def readsInput (invocation : Invocation) : Bool :=
  invocation.command.isNone && invocation.script.isNone

/-- The files in which a shell saves its state. -/
def savedFiles (disk : Disk) (directory : String) : List String :=
  [Save.filesKey, Save.aliasesKey, Save.historyKey].map (DirectoryStore.path ⟨disk, directory⟩)

/-- The files that a run may touch, as far as the settings on a disk tell. -/
def filesTouched (disk : Disk) (home : Option String) (invocation : Invocation) : List String :=
  let named := invocation.config.toList ++ invocation.script.toList
  match settings disk invocation with
  | .error _ => named
  | .ok settings => named ++ ((stateDirectory home settings invocation).toList.flatMap (savedFiles disk))

def isFarewell (line : String) : Bool :=
  let line := String.ofList (Text.trim line.toList)
  line = "exit" || line = "logout"

end CommandLine

end VirtualShell

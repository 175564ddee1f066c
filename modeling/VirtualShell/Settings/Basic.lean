import VirtualShell.Settings.Stamp
import VirtualShell.Shell

/-! # Settings

A settings file names the user, the host, the home directory, the directory for saved state, and
aliases.  All of it is optional, everything is a text, and nothing else is accepted, except for a date
or a time in place of all aliases.
-/

namespace VirtualShell

/-- The values that a settings file may give. -/
structure Settings where
  user : Option String := none
  host : Option String := none
  home : Option String := none
  stateDirectory : Option String := none
  aliases : AliasTable := .empty

namespace Settings

/-- How the aliases have been given so far. -/
inductive AliasForm
  | absent
  /-- One by one, by names of two parts; more may follow. -/
  | byName
  /-- As a whole; nothing may be added elsewhere. -/
  | whole
deriving DecidableEq

structure Draft where
  settings : Settings
  form : AliasForm
  /-- The lines belong to the table of aliases. -/
  inTable : Bool

/-- The settings with a value under the name of a setting, which must not have one yet. -/
def assign (name value : String) (settings : Settings) : Option Settings :=
  match name with
  | "username" => if settings.user.isSome then none else some { settings with user := some value }
  | "hostname" => if settings.host.isSome then none else some { settings with host := some value }
  | "home" => if settings.home.isSome then none else some { settings with home := some value }
  | "state_dir" =>
    if settings.stateDirectory.isSome then none else some { settings with stateDirectory := some value }
  | _ => none

def addAlias (name value : String) (settings : Settings) : Option Settings :=
  if (settings.aliases.get? name).isSome then none
  else some { settings with aliases := settings.aliases.insert name value }

def bracedAliases : Nat → Settings → Reader Settings
  | 0, _, _ => none
  | fuel + 1, settings, text => do
    let (name, text) ← assigned text
    let (value, text) ← quoted text
    let settings ← match name with
      | [name] => settings.addAlias name value
      | _ => none
    match skipBlanks text with
    | ',' :: rest => bracedAliases fuel settings rest
    | '\x7d' :: rest => return (settings, rest)
    | _ => none

/-- The name of the only alias when a date or a time is given in place of all aliases. -/
def stampName : String := "$__toml_private_datetime"

/-- Reads all aliases as one value.  A date or a time is an alias for its canonical form. -/
def aliasValue (settings : Settings) : Reader Settings
  | '\x7b' :: rest =>
    match skipBlanks rest with
    | '\x7d' :: rest => some (settings, rest)
    | rest => bracedAliases rest.length settings rest
  | text => do
    let (stamp, rest) ← Stamp.read text
    return (← settings.addAlias stampName stamp.render, rest)

def valueLine (draft : Draft) (text : List Char) : Option (Draft × List Char) := do
  let (name, text) ← assigned text
  if draft.inTable then
    let (value, text) ← quoted text
    match name with
    | [name] => return ({ draft with settings := ← draft.settings.addAlias name value }, text)
    | _ => none
  else match name with
    | ["aliases"] =>
      if draft.form ≠ .absent then none
      else
        let (settings, text) ← aliasValue draft.settings text
        return ({ draft with settings, form := .whole }, text)
    | ["aliases", name] =>
      if draft.form = .whole then none
      else
        let (value, text) ← quoted text
        return ({ draft with settings := ← draft.settings.addAlias name value, form := .byName }, text)
    | [name] =>
      let (value, text) ← quoted text
      return ({ draft with settings := ← draft.settings.assign name value }, text)
    | _ => none

/-- Reads the heading of the table of aliases. -/
def heading (draft : Draft) (text : List Char) : Option (Draft × List Char) := do
  let (name, text) ← nameParts text.length [] text
  match text with
  | ']' :: rest =>
    if name = ["aliases"] ∧ draft.form = .absent then
      return ({ draft with form := .whole, inTable := true }, rest)
    else none
  | _ => none

def readLines : Nat → Draft → List Char → Option Settings
  | 0, draft, text => if text.isEmpty then some draft.settings else none
  | fuel + 1, draft, text =>
    match skipBlanks text with
    | [] => some draft.settings
    | '[' :: rest => do
      let (draft, rest) ← heading draft rest
      readLines fuel draft (← finishLine rest)
    | text =>
      match finishLine text with
      | some rest => readLines fuel draft rest
      | none => do
        let (draft, rest) ← valueLine draft text
        readLines fuel draft (← finishLine rest)

/-- The settings that a text gives.  A mark of the byte order in front is passed over. -/
def parse? (text : String) : Option Settings :=
  let chars := match text.toList with
    | '\ufeff' :: rest => rest
    | chars => chars
  readLines (chars.length + 1) ⟨{}, .absent, false⟩ chars

/-- The options with the given values in place. -/
def apply (settings : Settings) (options : Options) : Options :=
  { options with
    user := settings.user.getD options.user
    host := settings.host.getD options.host
    home := settings.home.getD options.home
    aliases := settings.aliases.foldl (fun table (name, value) => table.insert name value)
      options.aliases }

end Settings

end VirtualShell

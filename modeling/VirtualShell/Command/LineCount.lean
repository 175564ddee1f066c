import VirtualShell.State.Error
import VirtualShell.Text.Basic
import VirtualShell.Text.Pieces

/-! # Line counts

The options with which the first or the last lines of files are asked for.
-/

namespace VirtualShell.Command

structure LineCount where
  lines : Nat
  /-- The files as they are named. -/
  files : List String
deriving DecidableEq, Repr

namespace LineCount

/-- The number of lines without an option. -/
def standard : Nat := 10

def value (command : String) (text : List Char) : Except ShellError Nat :=
  match Text.count? text with
  | some n => .ok n
  | none => .error (.usage
      (command ++ ": invalid number of lines: '" ++ String.ofList text ++ "'"))

inductive Part
  /-- The number is the next argument. -/
  | awaitsNumber
  | number (text : List Char)
  | unknown (name : List Char)
  | file

/-- The meaning of an argument: the options are tried in this order. -/
def part (argument : List Char) : Part :=
  if argument = ['-', 'n'] then .awaitsNumber
  else if ['-', '-', 'l', 'i', 'n', 'e', 's', '='].isPrefixOf argument then .number (argument.drop 8)
  else if ['-', 'n'].isPrefixOf argument then .number (argument.drop 2)
  else match argument with
    | '-' :: first :: rest =>
      if (first :: rest).all Char.isDigit then .number (first :: rest) else .unknown (first :: rest)
    | _ => .file

def read (command : String) (options : LineCount) : List String → Except ShellError LineCount
  | [] => .ok options
  | argument :: rest =>
    match part argument.toList with
    | .awaitsNumber =>
      match rest with
      | [] => .error (.usage (command ++ ": option requires an argument -- 'n'"))
      | number :: rest => do
        let lines ← value command number.toList
        read command { options with lines } rest
    | .number text => do
      let lines ← value command text
      read command { options with lines } rest
    | .unknown name =>
      .error (.usage (command ++ ": invalid option -- '" ++ String.ofList name ++ "'"))
    | .file => read command { options with files := options.files ++ [argument] } rest

end LineCount

/-- The line count that the arguments of a command ask for. -/
def parseLineCount (command : String) (arguments : List String) : Except ShellError LineCount := do
  let options ← LineCount.read command ⟨LineCount.standard, []⟩ arguments
  if options.files.isEmpty then .error (.usage (command ++ ": missing file operand")) else .ok options

def firstLines (count : Nat) (content : String) : List String := (Text.linesOf content).take count

def lastLines (count : Nat) (content : String) : List String :=
  let all := Text.linesOf content
  all.drop (all.length - count)

end VirtualShell.Command

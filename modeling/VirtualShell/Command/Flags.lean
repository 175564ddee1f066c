import VirtualShell.State.Error

/-! # Flags and operands

Single-letter flags may be joined behind one dash and may stand anywhere.  Two dashes end them; one
dash alone is an operand.
-/

namespace VirtualShell.Command

structure Arguments where
  /-- Each flag once, in the order of first use. -/
  flags : List Char
  operands : List String
deriving DecidableEq, Repr

namespace Arguments

def has (arguments : Arguments) (flag : Char) : Bool := arguments.flags.contains flag

def addFlag (arguments : Arguments) (flag : Char) : Arguments :=
  if arguments.has flag then arguments else { arguments with flags := arguments.flags ++ [flag] }

def addOperand (arguments : Arguments) (operand : String) : Arguments :=
  { arguments with operands := arguments.operands ++ [operand] }

/-- Adds the flags joined in one argument. -/
def addFlags (command : String) (allowed : List Char) (arguments : Arguments) :
    List Char → Except ShellError Arguments
  | [] => .ok arguments
  | flag :: rest =>
    if allowed.contains flag then addFlags command allowed (arguments.addFlag flag) rest
    else .error (.usage (command ++ ": invalid option -- '" ++ flag.toString ++ "'"))

/-- Sorts arguments into flags and operands, after those sorted before. -/
def read (command : String) (allowed : List Char) (arguments : Arguments) :
    List String → Except ShellError Arguments
  | [] => .ok arguments
  | argument :: rest =>
    match argument.toList with
    | '-' :: '-' :: [] => .ok (rest.foldl addOperand arguments)
    | '-' :: first :: letters => do
      read command allowed (← addFlags command allowed arguments (first :: letters)) rest
    | _ => read command allowed (arguments.addOperand argument) rest

end Arguments

/-- The flags and operands among the arguments of a command. -/
def parseFlags (command : String) (allowed : List Char) (arguments : List String) :
    Except ShellError Arguments := Arguments.read command allowed ⟨[], []⟩ arguments

end VirtualShell.Command

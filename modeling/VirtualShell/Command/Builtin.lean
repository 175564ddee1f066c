/-! # Built-in commands

The commands that every shell has, with their names and usage texts.
-/

namespace VirtualShell

inductive Builtin
  | aliases
  | cat
  | cd
  | clear
  | cp
  | date
  | echo
  | find
  | grep
  | head
  | help
  | history
  | ls
  | mkdir
  | mv
  | pwd
  | rm
  | rmdir
  | tail
  | touch
  | tree
  | unalias
  | wc
  | which
  | whoami
deriving DecidableEq, Repr

namespace Builtin

/-- All of them, in the order of their names. -/
def all : List Builtin :=
  [aliases, cat, cd, clear, cp, date, echo, find, grep, head, help, history, ls, mkdir, mv, pwd, rm,
    rmdir, tail, touch, tree, unalias, wc, which, whoami]

def name : Builtin → String
  | aliases => "alias"
  | cat => "cat"
  | cd => "cd"
  | clear => "clear"
  | cp => "cp"
  | date => "date"
  | echo => "echo"
  | find => "find"
  | grep => "grep"
  | head => "head"
  | help => "help"
  | history => "history"
  | ls => "ls"
  | mkdir => "mkdir"
  | mv => "mv"
  | pwd => "pwd"
  | rm => "rm"
  | rmdir => "rmdir"
  | tail => "tail"
  | touch => "touch"
  | tree => "tree"
  | unalias => "unalias"
  | wc => "wc"
  | which => "which"
  | whoami => "whoami"

def usage : Builtin → String
  | aliases => "alias - define or display aliases\n\nUsage: alias [name[=value] ...]\nWithout arguments, list every alias. The value replaces the first word of a command line."
  | cat => "Usage: cat FILE...\nConcatenate FILE(s) and print them."
  | cd => "Usage: cd [DIR]\nChange the working directory. With no DIR or '~', go home; '-' returns to the previous directory."
  | clear => "Usage: clear\nClear the terminal screen."
  | cp => "Usage: cp [-r] SOURCE DEST\nCopy SOURCE to DEST. A source copied onto an existing directory keeps its name.\n\nOptions:\n  -r, -R    copy directories recursively"
  | date => "Usage: date [-u] [+FORMAT]\nDisplay the current time.\n\nOptions:\n  -u    print UTC\n\nFORMAT sequences: %Y year  %m month  %d day  %H hour  %M minute  %S second  %F date  %T time"
  | echo => "Usage: echo [STRING]...\nDisplay the STRINGs separated by single spaces."
  | find => "Usage: find [PATH] PATTERN\nSearch PATH (default: the current directory) recursively for names matching PATTERN.\n'*' matches any run of characters; a pattern without '*' matches any name containing it.\nMatching ignores case."
  | grep => "Usage: grep [-r] [-i] PATTERN [PATH]\nPrint lines matching the regular expression PATTERN in PATH (default: the current directory).\n\nOptions:\n  -r    search subdirectories too\n  -i    ignore case"
  | head => "Usage: head [-n NUM] FILE...\nPrint the first 10 lines of each FILE.\n\nOptions:\n  -n, --lines=NUM    print the first NUM lines instead"
  | help => "help - display available commands\n\nUsage: help [command]"
  | history => "Usage: history [N] | history -c\nShow the command history, or only the last N entries.\n\nOptions:\n  -c    clear the history"
  | ls => "Usage: ls [-a] [DIRECTORY]...\nList directory contents. Directories are shown with a trailing '/'.\n\nOptions:\n  -a    do not ignore entries starting with ."
  | mkdir => "Usage: mkdir DIRECTORY...\nCreate directories. Parent directories must already exist."
  | mv => "Usage: mv SOURCE DEST\nRename SOURCE to DEST, or move SOURCE into DEST when DEST is a directory."
  | pwd => "Usage: pwd\nPrint the name of the current working directory."
  | rm => "Usage: rm FILE...\nRemove files. Use rmdir for empty directories."
  | rmdir => "Usage: rmdir DIRECTORY...\nRemove empty directories."
  | tail => "Usage: tail [-n NUM] FILE...\nPrint the last 10 lines of each FILE.\n\nOptions:\n  -n, --lines=NUM    print the last NUM lines instead"
  | touch => "Usage: touch FILE...\nCreate each FILE as an empty file if it does not exist."
  | tree => "tree - list contents of directories in a tree-like format\n\nUsage: tree [-a] [DIRECTORY]\n\nOptions:\n  -a    include hidden files"
  | unalias => "unalias - remove alias definitions\n\nUsage: unalias [-a] name [name ...]\n\nOptions:\n  -a    remove all alias definitions"
  | wc => "Usage: wc FILE...\nPrint line, word and character counts for each FILE."
  | which => "which - show how a command name is resolved\n\nUsage: which NAME..."
  | whoami => "Usage: whoami\nPrint the session user name."

end Builtin

end VirtualShell

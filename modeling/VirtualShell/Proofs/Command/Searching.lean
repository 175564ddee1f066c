import VirtualShell.Proofs.Command.Usage
import VirtualShell.Proofs.Search.Lines

/-! # Searches for lines by command

The command looks its operand up in the tree and then searches a file or a directory there.  A file that
was found can be searched, so the command never has to say that there is no such file.
-/

namespace VirtualShell

namespace Command

/-- The errors that do not say about some path that there is no such file. -/
def KnowsFile (e : ShellError) : Prop :=
  ∀ path, e ≠ .usage ("grep: " ++ path ++ ": No such file")

theorem knowsFile_files (command operand : String) (cause : FileError) :
    KnowsFile (.files command operand cause) := fun _ => nofun

/-- It is enough to look at how the message ends. -/
theorem knowsFile_usage {message : String} (h : ¬ ['f', 'i', 'l', 'e'] <:+ message.toList) :
    KnowsFile (.usage message) := by
  intro path heq
  apply h
  have hmessage : message = "grep: " ++ path ++ ": No such " ++ "file" := by
    rw [ShellError.usage.inj heq]
    simp [String.append_assoc]
  rw [hmessage, String.toList_append]
  exact List.suffix_append _ _

theorem knowsFile_of_getLast? {message : String} (last : Char) (h : message.toList.getLast? = some last)
    (hlast : last ≠ 'e') : KnowsFile (.usage message) := by
  apply knowsFile_usage
  rintro ⟨front, hfront⟩
  rw [← hfront, List.getLast?_append] at h
  exact hlast (Option.some.inj h).symm

theorem reason_ending (e : PatternError) :
    4 ≤ e.reason.toList.length ∧ ¬ ['f', 'i', 'l', 'e'] <:+ e.reason.toList := by
  -- the rewrite reads the characters off the literal, which no evaluation of the text does as fast
  cases e <;> (simp only [PatternError.reason]; rw [String.toList_ofList]; decide)

theorem knowsFile_invalidPattern (pattern : String) (e : PatternError) :
    KnowsFile (.usage ("grep: " ++ (FileError.invalidPattern pattern e.reason).message)) := by
  obtain ⟨hlength, hending⟩ := reason_ending e
  apply knowsFile_usage
  intro hfile
  have hreason : e.reason.toList <:+
      ("grep: " ++ (FileError.invalidPattern pattern e.reason).message).toList := by
    unfold FileError.message
    rw [← String.append_assoc, String.toList_append]
    exact List.suffix_append _ _
  exact hending (List.suffix_of_suffix_length_le hfile hreason hlength)

theorem knowsFile_of_linePattern_eq_error {pattern : String} {caseSensitive : Bool} {e : FileError}
    (h : linePattern pattern caseSensitive = .error e) : KnowsFile (.usage ("grep: " ++ e.message)) := by
  unfold linePattern at h
  split at h
  · cases h
  · cases h
    exact knowsFile_invalidPattern pattern _

theorem knowsFile_of_read_eq_error {command : String} {allowed : List Char} {arguments : Arguments}
    {given : List String} {e : ShellError}
    (h : Arguments.read command allowed arguments given = .error e) : KnowsFile e := by
  obtain ⟨flag, rfl⟩ := exists_flag_of_read_eq_error h
  exact knowsFile_of_getLast? '\'' (by simp [String.toList_append]) (by decide)

open VirtualShell.Action in
/-- A search of a file that the command has just found in the tree does not miss it. -/
theorem grep_knowsFile (given : List String) : (grep given).FailsWith KnowsFile := by
  unfold grep
  apply failsWith_bind
  · unfold arguments parseFlags
    split
    · exact failsWith_pure _
    · rename_i e hread
      exact failsWith_throw (knowsFile_of_read_eq_error hread)
  intro options
  apply failsWith_bind
  · unfold grepOperands
    split
    · exact failsWith_throw (knowsFile_of_getLast? ']' (by rw [String.toList_ofList]; rfl) (by decide))
    · exact failsWith_pure _
    · exact failsWith_pure _
    · exact failsWith_throw (knowsFile_of_getLast? ']' (by rw [String.toList_ofList]; rfl) (by decide))
  rintro ⟨pattern, path⟩
  dsimp only
  split
  · rename_i e hrefused
    exact failsWith_throw (knowsFile_of_linePattern_eq_error hrefused)
  rename_i compiled hcompiled
  refine failsWith_bind failsWith_root fun root => ?_
  refine failsWith_bind failsWith_directory fun directory => ?_
  refine failsWith_expect_bind (knowsFile_files "grep" path) fun node hnode => ?_
  cases node with
  | file content =>
      have hsearch := Node.searchFile_eq hcompiled hnode
      dsimp only
      rw [hsearch]
      exact failsWith_pure _
  | directory entries =>
      dsimp only
      exact failsWith_expect_bind (knowsFile_files "grep" path) fun files _ => failsWith_pure _

/-- The search of a directory gives each file below it, in order, with the lines that a search of the
file from the root gives, if there are any.  Each of these searches has an answer, and a flat search
gives a part of what a deep one gives.  For a file there is just the file itself.  The command never
misses a file that it was to search. -/
theorem search_agrees {root node : Node} {start pattern : String} {caseSensitive : Bool}
    {compiled : Pattern} (hroot : root.WellFormed) (hat : root.at? start = .ok node)
    (hpattern : linePattern pattern caseSensitive = .ok compiled) :
    let search := fun file => root.searchFile "/" file pattern caseSensitive
    let files := fun deep => if node.isDirectory then root.filesBelow start deep else [Path.canonical start]
    let answer := fun deep => FileMatches.ofFiles search (files deep)
    (∀ deep, root.searchBelow start pattern deep caseSensitive = .ok (answer deep)) ∧
      (∀ deep, ∀ file ∈ files deep, ∃ content, root.at? file = .ok (.file content) ∧
        search file = some (matchingLines compiled content)) ∧
      (answer false).Sublist (answer true) ∧
      ∀ given state path after,
        grep given state ≠ .error (.usage ("grep: " ++ path ++ ": No such file")) after := by
  intro search files answer
  have hfallback : ∀ given state path after,
      grep given state ≠ .error (.usage ("grep: " ++ path ++ ": No such file")) after :=
    fun given state path after hfail => grep_knowsFile given state _ after hfail path rfl
  cases node with
  | file content =>
      have hthere : root.at? (Path.canonical start) = .ok (.file content) := Node.at?_canonical hat
      have hsearch : search (Path.canonical start) = some (matchingLines compiled content) :=
        Node.searchFile_absolute hpattern (Path.head?_ofSegments _) hthere
      refine ⟨Node.searchBelow_file hat hpattern, ?_, List.Sublist.refl _, hfallback⟩
      intro deep file hfile
      obtain rfl : file = Path.canonical start := List.mem_singleton.mp hfile
      exact ⟨content, hthere, hsearch⟩
  | directory entries =>
      refine ⟨Node.searchBelow_directory hroot.named hat rfl hpattern, ?_, ?_, hfallback⟩
      · intro deep file hfile
        obtain ⟨habsolute, content, hthere⟩ := Node.at?_of_mem_filesBelow hroot.named hat hfile
        exact ⟨content, hthere, Node.searchFile_absolute hpattern habsolute hthere⟩
      · apply FileMatches.ofFiles_sublist
        exact Node.filesBelow_sublist hroot.named hat

/-- A start with slashes that the paths below it do not have, and a file without a match. -/
theorem search_agrees_slashes :
    let inside := Node.directory [("b", .file "x\ny"), ("c", .file "y")]
    let root := Node.directory [("a", inside)]
    root.WellFormed ∧ root.at? "/a//" = .ok inside ∧
      (∃ compiled, linePattern "x" true = .ok compiled) ∧
      root.searchBelow "/a//" "x" true true = .ok [⟨"/a/b", [⟨1, "x"⟩]⟩] := by
  intro inside root
  have hletter : ∀ name ∈ ["a", "b", "c"], Path.IsName name := by simp [Path.IsName]
  have hinside : inside.Named Path.IsName := by
    simp [inside, Node.Named.directory_iff, Node.Named.file, hletter]
  have hroot : root.WellFormed := by
    refine ⟨rfl, ?_⟩
    simp [root, Node.Named.directory_iff, hletter, hinside]
  have hat : root.at? "/a//" = .ok inside := rfl
  obtain ⟨compiled, hpattern⟩ : ∃ compiled, linePattern "x" true = .ok compiled := ⟨_, rfl⟩
  have hfiles : root.filesBelow "/a//" true = ["/a/b", "/a/c"] := Node.filesBelow_eq hroot.named hat true
  have hdirectory : inside.isDirectory := rfl
  have hanswer := (search_agrees hroot hat hpattern).1 true
  dsimp only at hanswer
  rw [if_pos hdirectory, hfiles] at hanswer
  exact ⟨hroot, hat, ⟨compiled, hpattern⟩, hanswer⟩

end Command

end VirtualShell

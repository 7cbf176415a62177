import LexicalScope.Command
import LexicalScope.Json.Reader

/-!
The program run on real files. It parses no JavaScript itself: the tree of the input file, as JSON,
is read from standard input.
-/

namespace LexicalScope.Main

partial def readAll (stream : IO.FS.Stream) : IO String := do
  let line ← stream.getLine
  if line.isEmpty then return "" else return line ++ (← readAll stream)

/-- What stands at a place. A directory leads back to itself by way of a dot, and nothing else
    does. -/
def load? (place : List String) : IO (Option Entry) := do
  let path := (Path.mk .root place).text
  try
    let _ ← IO.FS.realPath (path ++ "/.")
    return some .directory
  catch _ =>
    try
      return some (.file (← IO.FS.readBinFile path))
    catch _ => return none

/-- The tree with what stands at a place and at the places above it. -/
def loadTo (t : FileTree) (place : List String) : IO FileTree := do
  let mut t := t
  for n in List.range place.length do
    let here := place.take (n + 1)
    if (t.get? here).isNone then
      if let some entry ← load? here then
        t := t.insert here entry
  return t

/-- The places that the names of a path lead to, one after another. -/
def places (p : Path) (workingDirectory : List String) : List (List String) :=
  (List.range p.parts.length).map fun n =>
    (Path.mk p.anchor (p.parts.take (n + 1))).absolute workingDirectory

/-- The part of the file system that a command looks at. -/
def loadFor (workingDirectory : List String) (command : CommandLine.Scan) : IO FileTree := do
  let mut t : FileTree := ⟨workingDirectory, []⟩
  let paths := [command.input, command.settings.out.getD ""].map Path.ofString
  for place in workingDirectory :: paths.flatMap (places · workingDirectory) do
    t ← loadTo t place
  return t

/-- The parser that delivers the tree given as JSON. -/
def replay (json : String) : Parser := fun _ _ =>
  match Json.parse? json with
  | some ast => .tree ast
  | none => .failed ⟨"The tree on standard input is not JSON", none, none, none⟩

/-- Makes the directories and writes the files that are new or different. -/
def save (before after : FileTree) : IO Unit := do
  for (place, entry) in after.entries do
    if let .directory := entry then
      if (before.get? place).isNone then IO.FS.createDirAll (Path.mk .root place).text
  for (place, content) in after.changedSince before do
    IO.FS.writeBinFile (Path.mk .root place).text content

/-- Runs the program on the files it looks at. -/
def runOn (before : FileTree) (json : String) (words : List String) : IO UInt32 := do
  let outcome := Command.run (replay json) before words
  save before outcome.files
  (← IO.getStdout).putStr outcome.stdout
  (← IO.getStderr).putStr outcome.stderr
  match outcome.exit with
  | .ok code => return code.toUInt32
  | .error f =>
    (← IO.getStderr).putStr ((f.message?.getD "The report could not be made") ++ "\n")
    return 1

end LexicalScope.Main

/-- Runs the program; standard input is read only by a command. -/
def main (words : List String) : IO UInt32 := do
  let workingDirectory := (LexicalScope.Path.ofString (← IO.currentDir).toString).parts
  match LexicalScope.CommandLine.parse words with
  | .ok ⟨_, some command⟩ =>
    let files ← LexicalScope.Main.loadFor workingDirectory command
    let json ← LexicalScope.Main.readAll (← IO.getStdin)
    LexicalScope.Main.runOn files json words
  | _ => LexicalScope.Main.runOn ⟨workingDirectory, []⟩ "null" words

/-!
Files and directories, by the names that lead to them from the root. A path is followed the way a
file system does it: every name but the last must lead to a directory that is there, and `..` leads
back to the directory above. Names and paths have a greatest length in bytes, and hold no null.
-/

namespace LexicalScope

/-! ## Paths -/

/-- What a path begins with. -/
inductive Anchor where
  /-- A name: the path leads on from the working directory. -/
  | relative
  /-- A slash, or three and more. -/
  | root
  /-- Two slashes. They lead where one does, and stay two when the path is written. -/
  | doubleRoot
deriving DecidableEq, Inhabited

namespace Anchor

def ofChars : List Char → Anchor
  | '/' :: '/' :: '/' :: _ => .root
  | '/' :: '/' :: _ => .doubleRoot
  | '/' :: _ => .root
  | _ => .relative

def text : Anchor → String
  | .relative => ""
  | .root => "/"
  | .doubleRoot => "//"

end Anchor

/-- A path, from the root or from the working directory. -/
structure Path where
  anchor : Anchor
  parts : List String
deriving DecidableEq, Inhabited

namespace Path

/-- The path leads from the root. -/
def rooted (p : Path) : Bool := p.anchor ≠ .relative

/-- What stands between the slashes of a text. -/
def pieces : List Char → List (List Char)
  | [] => [[]]
  | c :: rest =>
    match pieces rest with
    | [] => [[c]]
    | piece :: more => if c = '/' then [] :: piece :: more else (c :: piece) :: more

/-- The path that a text spells. Empty names and `.` lead nowhere. -/
def ofString (s : String) : Path where
  anchor := .ofChars s.toList
  parts := ((pieces s.toList).map String.ofList).filter fun part => part ≠ "" ∧ part ≠ "."

/-- A path as it is written; one without a beginning and without names is written `.`. -/
def text (p : Path) : String :=
  if !p.rooted && p.parts.isEmpty then "."
  else p.anchor.text ++ String.intercalate "/" p.parts

/-- The path of a name in the directory that a path leads to. -/
def child (p : Path) (name : String) : Path := ⟨p.anchor, p.parts ++ [name]⟩

def parent (p : Path) : Path := ⟨p.anchor, p.parts.dropLast⟩

def hasNull (p : Path) : Bool := p.parts.any fun part => part.toList.contains '\x00'

/-- The greatest length of a name, in bytes. -/
def nameLimit : Nat := 255

/-- The greatest length of a path, in bytes. -/
def textLimit : Nat := 4095

/-- The names from the root, with every `..` taken off together with the name before it, whatever
    the files are. -/
def absolute (p : Path) (workingDirectory : List String) : List String :=
  p.parts.foldl (fun place part => if part = ".." then place.dropLast else place ++ [part])
    (if p.rooted then [] else workingDirectory)

end Path

/-! ## Trees -/

/-- What a name can lead to. -/
inductive Entry where
  | file (content : ByteArray)
  | directory
deriving Inhabited

/-- Why a file operation stops. -/
inductive FileFault where
  /-- A name leads nowhere. -/
  | notFound
  /-- Something other than a directory has names after it. -/
  | notADirectory
  /-- A directory stands where a file is wanted. -/
  | isADirectory
  /-- Something stands where a directory is to be made. -/
  | alreadyThere
  /-- A name or a path is longer than it may be. -/
  | tooLong
  /-- A null stands in a path. -/
  | nullInPath
deriving DecidableEq, Inhabited

/-- Files and directories by their names from the root, and a working directory. -/
structure FileTree where
  workingDirectory : List String
  entries : List (List String × Entry)
deriving Inhabited

namespace FileTree

/-- What stands at a place. The root is a directory. -/
def get? (t : FileTree) (place : List String) : Option Entry :=
  if place.isEmpty then some .directory else t.entries.lookup place

/-- The tree with an entry at a place, in the stead of any other. -/
def insert (t : FileTree) (place : List String) (entry : Entry) : FileTree :=
  { t with entries := t.entries.filter (fun e => e.1 != place) ++ [(place, entry)] }

def isDirectoryAt (t : FileTree) (place : List String) : Bool :=
  match t.get? place with
  | some .directory => true
  | _ => false

/-- The place that names lead to from a place, through directories that are there. The last name
    may lead to nothing. -/
def follow (t : FileTree) (place : List String) : List String → Except FileFault (List String)
  | [] => .ok place
  | part :: rest =>
    match t.get? place with
    | none => .error .notFound
    | some (.file _) => .error .notADirectory
    | some .directory =>
      if Path.nameLimit < part.utf8ByteSize then .error .tooLong
      else t.follow (if part = ".." then place.dropLast else place ++ [part]) rest

/-- The place that a path leads to. The path as a whole is looked at before it is followed. -/
def placeOf (t : FileTree) (p : Path) : Except FileFault (List String) :=
  if p.hasNull then .error .nullInPath
  else if Path.textLimit < p.text.utf8ByteSize then .error .tooLong
  else t.follow (if p.rooted then [] else t.workingDirectory) p.parts

/-- What a path leads to. That it leads nowhere is an answer, and no fault. -/
def find (t : FileTree) (p : Path) : Except FileFault (Option Entry) :=
  match t.placeOf p with
  | .ok place => .ok (t.get? place)
  | .error .notFound | .error .notADirectory => .ok none
  | .error f => .error f

def isDirectory (t : FileTree) (p : Path) : Bool :=
  match t.placeOf p with
  | .ok place => t.isDirectoryAt place
  | .error _ => false

/-- What is taken out of a list of entries is the place itself and nothing else. -/
theorem lookup_filter_ne (entries : List (List String × Entry)) (place other : List String) :
    (entries.filter fun e => e.1 != place).lookup other =
      if other = place then none else entries.lookup other := by
  induction entries with
  | nil => simp
  | cons e rest ih =>
    obtain ⟨p, x⟩ := e
    rw [List.filter_cons]
    by_cases same : p = place
    · subst same
      by_cases here : other = p
      · simpa [here] using ih
      · have differ : (other == p) = false := by simp [here]
        simpa [here, List.lookup_cons, differ] using ih
    · have keep : (p != place) = true := by simp [same]
      rw [if_pos keep, List.lookup_cons, List.lookup_cons, ih]
      by_cases here : other = place
      · have differ : (other == p) = false := by simp [here, Ne.symm same]
        simp only [differ, if_pos here]
      · simp only [if_neg here]

/-- An insertion is seen at its own place and at no other; the root stays a directory. -/
theorem get?_insert (t : FileTree) (place other : List String) (entry : Entry) :
    (t.insert place entry).get? other =
      if other = [] then some .directory
      else if other = place then some entry
      else t.get? other := by
  by_cases root : other = []
  · simp [get?, root]
  · by_cases here : other = place
    · have taken := lookup_filter_ne t.entries place place
      rw [if_pos rfl] at taken
      simp [get?, insert, here, List.lookup_append, taken]
    · have kept := lookup_filter_ne t.entries place other
      rw [if_neg here] at kept
      have differ : (other == place) = false := by simp [here]
      simp [get?, insert, root, here, List.lookup_append, kept, List.lookup_cons, differ]

/-! ## Operations -/

/-- Makes a directory where nothing stands. -/
def makeDirectory (t : FileTree) (p : Path) : Except FileFault FileTree := do
  let place ← t.placeOf p
  if (t.get? place).isSome then .error .alreadyThere else .ok (t.insert place .directory)

/-- Makes a directory unless there is one. -/
def ensureDirectory (t : FileTree) (p : Path) : Except FileFault FileTree :=
  match t.makeDirectory p with
  | .ok made => .ok made
  | .error f => if t.isDirectory p then .ok t else .error f

/-- Makes the directory of a path, given by its names from the last to the first, and those above
    it that are missing. -/
def ensureAll (t : FileTree) (anchor : Anchor) : List String → Except FileFault FileTree
  | [] => .ok t
  | part :: above =>
    match t.ensureDirectory ⟨anchor, (part :: above).reverse⟩ with
    | .error .notFound => do
      let made ← t.ensureAll anchor above
      made.ensureDirectory ⟨anchor, (part :: above).reverse⟩
    | result => result

/-- Makes the directory of a path, and those above it that are missing. -/
def makeDirectories (t : FileTree) (p : Path) : Except FileFault FileTree :=
  t.ensureAll p.anchor p.parts.reverse

/-- Writes a file, in the stead of the one that is there. Any content can be written: it is bytes, and
    every text has its bytes in UTF-8. -/
def write (t : FileTree) (p : Path) (content : ByteArray) : Except FileFault FileTree := do
  let place ← t.placeOf p
  if t.isDirectoryAt place then .error .isADirectory
  else .ok (t.insert place (.file content))

def files (t : FileTree) : List (List String × ByteArray) :=
  t.entries.filterMap fun (place, entry) =>
    match entry with
    | .file content => some (place, content)
    | .directory => none

/-- The files that are new or different since an earlier tree. -/
def changedSince (t before : FileTree) : List (List String × ByteArray) :=
  t.files.filter fun (place, content) =>
    match before.get? place with
    | some (.file old) => old != content
    | _ => true

end FileTree

end LexicalScope

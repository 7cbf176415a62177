import LexicalScope.Text

/-!
The words of a command line, told apart and taken in order. A word that starts with a dash is an
option: spelled out, shortened to any beginning that only one long option has, joined to a value by
an equals sign, or, for options of one letter, run together. After a bare `--` every word is an
operand. A command takes one operand; a word it has no use for is set aside.
-/

namespace LexicalScope.CommandLine

/-! ## Grammars -/

/-- What an option does to the settings. -/
inductive Effect (σ : Type) where
  /-- Show the help and stop. -/
  | help
  /-- Change the settings. -/
  | set (change : σ → σ)
  /-- Change the settings by a value; the value `--` counts as none. -/
  | store (change : Option String → σ → σ)

/-- An option, under one name or more. -/
structure Switch (σ : Type) where
  names : List String
  effect : Effect σ

def Switch.takesValue {σ : Type} (s : Switch σ) : Bool :=
  match s.effect with
  | .store _ => true
  | _ => false

/-- What a command does with its operand. -/
inductive OperandUse where
  /-- Take it, and go on. -/
  | single
  /-- Take it as the name of a command, and leave all further words to that command. -/
  | command
deriving DecidableEq

/-- The options and the operand of a command. -/
structure Grammar (σ : Type) where
  switches : List (Switch σ)
  operand : OperandUse

/-- Why a command line is refused. -/
inductive UsageError where
  | ambiguous (word : String) (candidates : List String)
  | ignoredValue (names : List String) (value : String)
  | missingValue (names : List String)
  | unknownCommand (word : String) (commands : List String)
  | missingOperand (name : String)
  | unrecognized (words : List String)
deriving DecidableEq

def UsageError.message : UsageError → String
  | .ambiguous word candidates =>
    "ambiguous option: " ++ word ++ " could match " ++ String.intercalate ", " candidates
  | .ignoredValue names value =>
    "argument " ++ String.intercalate "/" names ++ ": ignored explicit argument " ++
      Text.quoted value
  | .missingValue names => "argument " ++ String.intercalate "/" names ++ ": expected one argument"
  | .unknownCommand word commands =>
    "argument command: invalid choice: " ++ Text.quoted word ++ " (choose from " ++
      String.intercalate ", " (commands.map Text.quoted) ++ ")"
  | .missingOperand name => "the following arguments are required: " ++ name
  | .unrecognized words => "unrecognized arguments: " ++ String.intercalate " " words

/-! ## Words -/

/-- An option recognised in a word, and what is joined to it: by an equals sign, or as further
    letters. -/
structure Match (σ : Type) where
  switch : Switch σ
  name : String
  joined : Option (List Char)

inductive Word (σ : Type) where
  | operand (text : String)
  /-- The bare `--` after which all words are operands. -/
  | separator
  | option (text : String) (found : Match σ)
  | unknown (text : String)

/-- The word as it was given. -/
def Word.text {σ : Type} : Word σ → String
  | .operand text => text
  | .separator => "--"
  | .option text _ => text
  | .unknown text => text

/-- A number below zero, with or without a point; a line end may follow. -/
def isNegativeNumber (word : List Char) : Bool :=
  match word with
  | '-' :: rest =>
    let number := if rest.getLast? = some '\n' then rest.dropLast else rest
    match number.dropWhile Text.isDigit with
    | [] => !number.isEmpty
    | '.' :: places => !places.isEmpty && places.all Text.isDigit
    | _ => false
  | _ => false

/-- A word before and after its first equals sign. -/
def splitEquals (word : List Char) : Option (List Char × List Char) :=
  match word.span (· ≠ '=') with
  | (before, _ :: after) => some (before, after)
  | (_, []) => none

namespace Grammar

variable {σ : Type} (g : Grammar σ)

/-- Every name of every option, with the option. -/
def names : List (String × Switch σ) :=
  g.switches.flatMap fun s => s.names.map fun name => (name, s)

def find? (name : String) : Option (Switch σ) := g.names.lookup name

/-- The options that a word may mean though it is the name of none. A word with two dashes may be
    the beginning of a name, with a value after an equals sign; one with a single dash may be the
    name of one letter, with more behind it. -/
def candidates (word : List Char) : List (Match σ) :=
  match word with
  | '-' :: '-' :: _ =>
    let start := ((splitEquals word).map Prod.fst).getD word
    let joined := (splitEquals word).map Prod.snd
    g.names.filterMap fun (name, switch) =>
      if start.isPrefixOf name.toList then some ⟨switch, name, joined⟩ else none
  | _ =>
    g.names.filterMap fun (name, switch) =>
      if name.toList = word.take 2 then some ⟨switch, name, some (word.drop 2)⟩
      else if word.isPrefixOf name.toList then some ⟨switch, name, none⟩
      else none

/-- The option whose name stands before the equals sign of a word. -/
def joined? (word : List Char) : Option (Match σ) := do
  let (before, value) ← splitEquals word
  let name := String.ofList before
  let switch ← g.find? name
  return ⟨switch, name, some value⟩

/-- Tells what a word is, before any bare `--`. -/
def classify (word : String) : Except UsageError (Word σ) :=
  match word.toList with
  | '-' :: more =>
    match g.find? word with
    | some switch => .ok (.option word ⟨switch, word, none⟩)
    | none =>
      if more.isEmpty then .ok (.operand word)
      else
        match g.joined? word.toList with
        | some found => .ok (.option word found)
        | none =>
          match g.candidates word.toList with
          | [] =>
            if isNegativeNumber word.toList || word.toList.contains ' ' then .ok (.operand word)
            else .ok (.unknown word)
          | [found] => .ok (.option word found)
          | many => .error (.ambiguous word (many.map Match.name))
  | _ => .ok (.operand word)

/-- Tells what every word is. -/
def classifyAll : List String → Except UsageError (List (Word σ))
  | [] => .ok []
  | word :: rest =>
    if word = "--" then .ok (.separator :: rest.map .operand)
    else do
      let first ← g.classify word
      let others ← classifyAll rest
      return first :: others

/-! ## Taking the words in order -/

/-- How a run of options in one word ends. -/
inductive Ending (σ : Type) where
  /-- With an option that has nothing joined to it. -/
  | plain (switch : Switch σ)
  /-- With an option and the value joined to it. -/
  | valued (switch : Switch σ) (value : String)

/-- Takes apart what is joined to an option: the value of one that wants a value, and more options
    after one of a single letter. What is left over is refused. -/
def takeJoined (switch : Switch σ) (short : Bool) :
    List Char → Except UsageError (List (Switch σ) × Ending σ)
  | [] =>
    if switch.takesValue then .ok ([], .valued switch "")
    else .error (.ignoredValue switch.names "")
  | c :: rest =>
    if switch.takesValue then .ok ([], .valued switch (String.ofList (c :: rest)))
    else
      match if short then g.find? (String.ofList ['-', c]) else none with
      | none => .error (.ignoredValue switch.names (String.ofList (c :: rest)))
      | some next =>
        if rest.isEmpty then .ok ([switch], .plain next)
        else do
          let (switches, ending) ← takeJoined next true rest
          return (switch :: switches, ending)

/-- The options in one word. -/
def takeMatch (found : Match σ) : Except UsageError (List (Switch σ) × Ending σ) :=
  match found.joined with
  | none => .ok ([], .plain found.switch)
  | some joined =>
    let short := (found.name.toList.drop 1).head? ≠ some '-'
    g.takeJoined found.switch short joined

end Grammar

/-- Why reading a command line ends early. -/
inductive Interruption where
  /-- The help is asked for. -/
  | help
  | refused (error : UsageError)

/-- What has been read so far. -/
structure Reading (σ : Type) where
  settings : σ
  operand : Option String
  /-- Words set aside. -/
  extra : List String

namespace Reading

variable {σ : Type}

def setAside (r : Reading σ) (word : String) : Reading σ := { r with extra := r.extra ++ [word] }

/-- An option that has no value, taken. -/
def apply (r : Reading σ) (s : Switch σ) : Except Interruption (Reading σ) :=
  match s.effect with
  | .help => .error .help
  | .set change => .ok { r with settings := change r.settings }
  | .store _ => .error (.refused (.missingValue s.names))

/-- Options that have no value, taken in order. -/
def applyAll (r : Reading σ) (switches : List (Switch σ)) : Except Interruption (Reading σ) :=
  switches.foldlM apply r

/-- An option taken with its value. -/
def applyValue (r : Reading σ) (s : Switch σ) (value : String) :
    Except Interruption (Reading σ) :=
  match s.effect with
  | .store change =>
    .ok { r with settings := change (if value = "--" then none else some value) r.settings }
  | _ => .error (.refused (.ignoredValue s.names value))

end Reading

/-- A command's words after its options: what was read, and the command named by the operand with
    the words that belong to it. -/
structure Taken (σ : Type) where
  reading : Reading σ
  command : Option (String × List String)

namespace Grammar

variable {σ : Type} (g : Grammar σ)

/-- Takes the words in order. A separator is used up by the operand next to it. -/
def take (r : Reading σ) : List (Word σ) → Except Interruption (Taken σ)
  | [] => .ok ⟨r, none⟩
  | .unknown text :: rest => take (r.setAside text) rest
  | .option _ found :: rest =>
    match g.takeMatch found with
    | .error e => .error (.refused e)
    | .ok (switches, .valued switch value) => do
      take (← (← r.applyAll switches).applyValue switch value) rest
    | .ok (switches, .plain switch) =>
      if switch.takesValue then
        match rest with
        | .operand value :: rest => do
          take (← (← r.applyAll switches).applyValue switch value) rest
        | _ => .error (.refused (.missingValue switch.names))
      else do
        take (← r.applyAll (switches ++ [switch])) rest
  | .operand text :: rest =>
    if r.operand.isSome then take (r.setAside text) rest
    else
      match g.operand with
      | .command => .ok ⟨r, some (text, rest.map Word.text)⟩
      | .single =>
        match rest with
        | .separator :: rest => take { r with operand := some text } rest
        | rest => take { r with operand := some text } rest
  | .separator :: rest =>
    if r.operand.isSome then take (r.setAside "--") rest
    else
      match rest with
      | .operand text :: rest =>
        match g.operand with
        | .command => .ok ⟨r, some ("--", text :: rest.map Word.text)⟩
        | .single => take { r with operand := some text } rest
      | rest => take (r.setAside "--") rest

def read (settings : σ) (words : List String) : Except Interruption (Taken σ) :=
  match g.classifyAll words with
  | .error e => .error (.refused e)
  | .ok words => g.take ⟨settings, none, []⟩ words

end Grammar

end LexicalScope.CommandLine

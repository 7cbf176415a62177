import LexicalScope.Command
import Mathlib.Data.List.Forall2
import Mathlib.Data.List.Induction

/-!
The options of `scan`, spelled out, can stand in any order around the input and be given any number of
times. The program hands all words behind `scan` on as they are, and each option then changes the
settings and nothing else, so that a command line comes down to its input and the settings it leads to:
which flags occur in it, and the file named last. Every arrangement is therefore run as the one in
which the input comes first and nothing is repeated (`run_arranged`).
-/

namespace LexicalScope

namespace CommandLine

/-- A word that cannot be taken for an option. -/
structure Operand where
  text : String
  plain : text.toList.head? ≠ some '-'
deriving DecidableEq

theorem Operand.ne_separator (operand : Operand) : operand.text ≠ "--" := by
  intro separator
  exact operand.plain (by rw [separator]; rfl)

/-- An option of `scan`, as it is asked for. -/
inductive ScanOption where
  | json
  | strict
  | asModule
  | out (file : Operand)
deriving DecidableEq

namespace ScanOption

/-- The words for an option. -/
def words : ScanOption → List String
  | json => ["--json"]
  | strict => ["--strict"]
  | asModule => ["--module"]
  | out file => ["--out", file.text]

/-- The first word for an option. -/
def name : ScanOption → String
  | json => "--json"
  | strict => "--strict"
  | asModule => "--module"
  | out _ => "--out"

/-- The settings once an option has been taken. -/
def apply (s : ScanSettings) : ScanOption → ScanSettings
  | json => { s with json := true }
  | strict => { s with strict := true }
  | asModule => { s with asModule := true }
  | out file => { s with out := some file.text }

def file? : ScanOption → Option Operand
  | out file => some file
  | _ => none

/-- The settings that options lead to, whatever their order: a flag is set by any mention of it, and of
    several files the last one counts. -/
def settings (options : List ScanOption) : ScanSettings where
  out := (options.filterMap file?).getLast?.map Operand.text
  json := options.contains json
  strict := options.contains strict
  asModule := options.contains asModule

/-- The words behind `scan`: an input with options before and after it. -/
def arrange (input : Operand) (before after : List ScanOption) : List String :=
  before.flatMap words ++ input.text :: after.flatMap words

/-- The same options with every flag at most once, and the last file behind them. -/
def canonical (options : List ScanOption) : List ScanOption :=
  [json, strict, asModule].filter options.contains ++
    ((options.filterMap file?).getLast?.map out).toList

end ScanOption

/-! ## Telling words apart -/

/-- What a grammar finds in the words of an option, given what it takes the name for. -/
def ScanOption.things {σ : Type} (thing : ScanOption → Word σ) : ScanOption → List (Word σ)
  | out file => [thing (out file), .operand file.text]
  | o => [thing o]

namespace Grammar

variable {σ : Type} (g : Grammar σ)

/-- The grammar finds these things in the words, one in each. -/
def Recognises (words : List String) (found : List (Word σ)) : Prop :=
  List.Forall₂ (fun word thing => word ≠ "--" ∧ g.classify word = .ok thing) words found

variable {g}

theorem Recognises.append {words more : List String} {found others : List (Word σ)}
    (first : g.Recognises words found) (second : g.Recognises more others) :
    g.Recognises (words ++ more) (found ++ others) :=
  List.rel_append first second

theorem Recognises.classifyAll {words : List String} {found : List (Word σ)}
    (recognised : g.Recognises words found) : g.classifyAll words = .ok found := by
  induction recognised with
  | nil => rfl
  | cons here _ ih =>
    rw [Grammar.classifyAll, if_neg here.1, here.2, ih]
    rfl

theorem classify_operand (operand : Operand) : g.classify operand.text = .ok (.operand operand.text) := by
  have plain := operand.plain
  unfold classify
  split
  · rename_i starts
    rw [starts] at plain
    exact absurd rfl plain
  · rfl

theorem recognises_operand (operand : Operand) :
    g.Recognises [operand.text] [.operand operand.text] :=
  .cons ⟨operand.ne_separator, classify_operand operand⟩ .nil

/-- A grammar that tells what the name of an option is tells what all of its words are. -/
theorem recognises_option {thing : ScanOption → Word σ} (o : ScanOption)
    (known : g.classify o.name = .ok (thing o)) : g.Recognises o.words (o.things thing) := by
  cases o with
  | out file => exact .cons ⟨by decide, known⟩ (recognises_operand file)
  | _ => exact .cons ⟨by decide, known⟩ .nil

theorem recognises_options {thing : ScanOption → Word σ}
    (known : ∀ o : ScanOption, g.classify o.name = .ok (thing o)) (options : List ScanOption) :
    g.Recognises (options.flatMap ScanOption.words) (options.flatMap (ScanOption.things thing)) := by
  induction options with
  | nil => exact .nil
  | cons o rest ih => exact (recognises_option o (known o)).append ih

theorem recognises_arrange {thing : ScanOption → Word σ}
    (known : ∀ o : ScanOption, g.classify o.name = .ok (thing o)) (input : Operand)
    (before after : List ScanOption) :
    g.Recognises (ScanOption.arrange input before after)
      (before.flatMap (ScanOption.things thing) ++
        .operand input.text :: after.flatMap (ScanOption.things thing)) :=
  (recognises_options known before).append
    ((recognises_operand input).append (recognises_options known after))

end Grammar

namespace ScanOption

/-- The grammar of the program does not know the options of `scan`. -/
def foreign (o : ScanOption) : Word MainSettings := .unknown o.name

/-- A word that is a flag of `scan`. -/
def flag (name : String) (change : ScanSettings → ScanSettings) : Word ScanSettings :=
  .option name ⟨⟨[name], .set change⟩, name, none⟩

/-- What the grammar of `scan` takes the name of an option for. -/
def known : ScanOption → Word ScanSettings
  | json => flag "--json" fun s => { s with json := true }
  | strict => flag "--strict" fun s => { s with strict := true }
  | asModule => flag "--module" fun s => { s with asModule := true }
  | out _ => .option "--out" ⟨⟨["--out"], .store fun value s => { s with out := value }⟩, "--out", none⟩

theorem classify_foreign (o : ScanOption) : mainGrammar.classify o.name = .ok o.foreign := by
  cases o with
  | out file =>
    show mainGrammar.classify "--out" = _
    rfl
  | _ => rfl

theorem classify_known (o : ScanOption) : scanGrammar.classify o.name = .ok o.known := by
  cases o with
  | out file =>
    show scanGrammar.classify "--out" = _
    rfl
  | _ => rfl

theorem foreign_text (o : ScanOption) : (o.things foreign).map Word.text = o.words := by
  cases o <;> rfl

end ScanOption

/-! ## Taking the words -/

section
open ScanOption (things known)

/-- The program hands the words behind `scan` on as they are. -/
theorem read_main {words : List String} {found : List (Word MainSettings)}
    (recognised : mainGrammar.Recognises words found) (same : found.map Word.text = words) :
    mainGrammar.read {} ("scan" :: words) = .ok ⟨⟨{}, none, []⟩, some ("scan", words)⟩ := by
  subst same
  have all : mainGrammar.Recognises ("scan" :: found.map Word.text) (.operand "scan" :: found) :=
    .cons ⟨by decide, rfl⟩ recognised
  rw [Grammar.read, all.classifyAll]
  rfl

theorem take_flag (r : Reading ScanSettings) (name : String) (change : ScanSettings → ScanSettings)
    (rest : List (Word ScanSettings)) :
    scanGrammar.take r (ScanOption.flag name change :: rest) =
      scanGrammar.take { r with settings := change r.settings } rest := by
  rw [ScanOption.flag, Grammar.take]
  rfl

/-- An option changes the settings by what it asks for, and leaves the rest as it is. -/
theorem take_option (r : Reading ScanSettings) (o : ScanOption) (rest : List (Word ScanSettings)) :
    scanGrammar.take r (o.things known ++ rest) =
      scanGrammar.take { r with settings := o.apply r.settings } rest := by
  cases o with
  | out file =>
    -- The one value that would count as none is no operand.
    have value : (if file.text = "--" then none else some file.text) = some file.text :=
      if_neg file.ne_separator
    show scanGrammar.take r (.option "--out" _ :: .operand file.text :: rest) = _
    rw [Grammar.take]
    show scanGrammar.take { r with settings := { r.settings with out := ite _ _ _ } } rest = _
    rw [value]
    rfl
  | _ => exact take_flag r _ _ rest

theorem take_options (r : Reading ScanSettings) (options : List ScanOption)
    (rest : List (Word ScanSettings)) :
    scanGrammar.take r (options.flatMap (things known) ++ rest) =
      scanGrammar.take { r with settings := options.foldl ScanOption.apply r.settings } rest := by
  induction options generalizing r with
  | nil => rfl
  | cons o later ih => rw [List.flatMap_cons, List.append_assoc, take_option, ih, List.foldl_cons]

/-- The input is taken where it stands; no separator is left behind it. -/
theorem take_input (settings : ScanSettings) (input : String) (options : List ScanOption) :
    scanGrammar.take ⟨settings, none, []⟩ (.operand input :: options.flatMap (things known)) =
      scanGrammar.take ⟨settings, some input, []⟩ (options.flatMap (things known)) := by
  cases options with
  | nil => rfl
  | cons o rest => cases o <;> rfl

/-- `scan` reads its input and the settings, and sets no word aside. -/
theorem read_scan (input : Operand) (before after : List ScanOption) :
    readScan (ScanOption.arrange input before after) =
      .ok (⟨input.text, (before ++ after).foldl ScanOption.apply {}⟩, []) := by
  have recognised := Grammar.recognises_arrange ScanOption.classify_known input before after
  have taken := take_options ⟨before.foldl ScanOption.apply {}, some input.text, []⟩ after []
  rw [List.append_nil] at taken
  have read : scanGrammar.read {} (ScanOption.arrange input before after) =
      .ok ⟨⟨(before ++ after).foldl ScanOption.apply {}, some input.text, []⟩, none⟩ := by
    rw [Grammar.read, recognised.classifyAll]
    show scanGrammar.take _ _ = _
    rw [take_options, take_input, taken, List.foldl_append]
    rfl
  rw [readScan, read]

end

/-! ## What the options come down to -/

namespace ScanOption

theorem foldl_apply (options : List ScanOption) : options.foldl apply {} = settings options := by
  induction options using List.reverseRecOn with
  | nil => rfl
  | append_singleton init o ih =>
    rw [List.foldl_append, ih]
    cases o <;> simp [settings, apply, file?]

theorem filterMap_file?_canonical (options : List ScanOption) :
    (canonical options).filterMap file? = (options.filterMap file?).getLast?.toList := by
  have flags : ([json, strict, asModule].filter options.contains).filterMap file? = [] := by
    rw [List.filterMap_eq_nil_iff]
    intro o member
    have flag := List.mem_of_mem_filter member
    simp only [List.mem_cons, List.not_mem_nil, or_false] at flag
    rcases flag with rfl | rfl | rfl <;> rfl
  rw [canonical, List.filterMap_append, flags]
  cases (options.filterMap file?).getLast? <;> rfl

theorem contains_canonical {o : ScanOption} (flag : o.file? = none) {options : List ScanOption} :
    (canonical options).contains o = options.contains o := by
  rw [canonical]
  generalize (options.filterMap file?).getLast? = last
  cases o with
  | out file => cases flag
  | _ => cases last <;> simp

theorem settings_canonical (options : List ScanOption) :
    settings (canonical options) = settings options := by
  have file : ((canonical options).filterMap file?).getLast? = (options.filterMap file?).getLast? := by
    rw [filterMap_file?_canonical]
    cases (options.filterMap file?).getLast? <;> rfl
  rw [settings, file, contains_canonical rfl, contains_canonical rfl, contains_canonical rfl]
  rfl

end ScanOption

/-- Every arrangement is accepted, and comes down to its input and the settings. -/
theorem parse_arrange (input : Operand) (before after : List ScanOption) :
    parse ("scan" :: ScanOption.arrange input before after) =
      .ok ⟨false, some ⟨input.text, ScanOption.settings (before ++ after)⟩⟩ := by
  have recognised := Grammar.recognises_arrange ScanOption.classify_foreign input before after
  have texts : ∀ options : List ScanOption,
      (options.flatMap (ScanOption.things ScanOption.foreign)).map Word.text =
        options.flatMap ScanOption.words := by
    intro options
    rw [List.map_flatMap]
    exact List.flatMap_congr fun o _ => o.foreign_text
  have same : (before.flatMap (ScanOption.things ScanOption.foreign) ++
      .operand input.text :: after.flatMap (ScanOption.things ScanOption.foreign)).map Word.text =
        ScanOption.arrange input before after := by
    rw [List.map_append, List.map_cons, texts, texts]
    rfl
  rw [parse, read_main recognised same]
  show (readScan _ >>= _) = _
  rw [read_scan, ScanOption.foldl_apply]
  rfl

end CommandLine

namespace Command

open CommandLine

/-- The order of the options does not matter, nor how often one is given. Whatever stands before and
    after the input, the command line is accepted with the flags that occur in it and the file named
    last; and the program prints, writes, returns and asks of the parser just what it does for the input
    followed by each of these flags once and by that file. -/
theorem run_arranged (parser : Parser) (files : FileTree) (input : Operand)
    (before after : List ScanOption) :
    CommandLine.parse ("scan" :: ScanOption.arrange input before after) =
        .ok ⟨false, some ⟨input.text, ScanOption.settings (before ++ after)⟩⟩ ∧
      run parser files ("scan" :: ScanOption.arrange input before after) =
        run parser files
          ("scan" :: input.text :: (ScanOption.canonical (before ++ after)).flatMap ScanOption.words) := by
  have arranged := parse_arrange input before after
  have plain := parse_arrange input [] (ScanOption.canonical (before ++ after))
  rw [List.nil_append, ScanOption.settings_canonical] at plain
  refine ⟨arranged, ?_⟩
  show _ = run parser files
    ("scan" :: ScanOption.arrange input [] (ScanOption.canonical (before ++ after)))
  rw [run, run, arranged, plain]

example :
    CommandLine.parse ["scan", "--out", "scan", "--json", "scan", "--out", "a b", "--json"] =
        .ok ⟨false, some ⟨"scan", { out := some "a b", json := true }⟩⟩ ∧
      ScanOption.canonical [.out ⟨"scan", by decide⟩, .json, .out ⟨"a b", by decide⟩, .json] =
        [.json, .out ⟨"a b", by decide⟩] :=
  ⟨rfl, rfl⟩

end Command

end LexicalScope

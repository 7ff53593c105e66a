import CalcImage.File.Path
import CalcImage.Log
import CalcImage.Text.Align
import CalcImage.Text.Digit
import CalcImage.Text.Quoted

/-!
# Options of the command line

Every argument is first taken by itself: it is a plain one, the mark `--` after which all are plain, or an option. An
option may be shortened to a beginning that no other has. A value stands in the next argument, after an equals sign, or
right after a one-letter option; one-letter options without a value may stand together, also when an equals sign parts the
first one from the others. What looks like a negative number or holds a space is plain unless it is an option. Only after
this are the options taken one after the other, and the last one of a name counts. An option whose value is the mark counts
as one without a value. The command line has no plain arguments of its own.
-/

namespace CalcImage

open CalcImage.Text

/-- The options. -/
inductive Opt where
  | help
  | filename
  | inject
  | list
  | print
  | summary
  | output
  | config
  | timezoneOffset
  | logLevel
  deriving DecidableEq, Repr

namespace Opt

/-- All options in the order of their spellings. -/
def all : List Opt :=
  [.help, .filename, .inject, .list, .print, .summary, .output, .config, .timezoneOffset, .logLevel]

/-- The spellings of an option. -/
def spellings : Opt → List String
  | help => ["-h", "--help"]
  | filename => ["-f", "--filename"]
  | inject => ["-i", "--inject"]
  | list => ["-l", "--list"]
  | print => ["-p", "--print"]
  | summary => ["-s", "--summary"]
  | output => ["-o", "--output"]
  | config => ["--config"]
  | timezoneOffset => ["--timezone-offset"]
  | logLevel => ["--log-level"]

/-- An option in messages. -/
def name (o : Opt) : String := joined "/" o.spellings

/-- The option has a value. -/
def takesValue : Opt → Bool
  | help | print | summary => false
  | filename | inject | list | output | config | timezoneOffset | logLevel => true

/-- All spellings with their options. -/
def table : List (String × Opt) := all.flatMap fun o => o.spellings.map fun s => (s, o)

/-- The option with a spelling. -/
def ofSpelling? (s : String) : Option Opt := table.lookup s

end Opt

/-- The offset of the clock that an option gives: a number of seconds, or nothing in place of it. -/
inductive ClockOffset where
  | seconds (n : Int)
  | void
  deriving DecidableEq, Repr

/-- What the command line asks for. -/
structure Options where
  filename : Option Path
  inject : Option String
  list : Option String
  print : Bool
  summary : Bool
  output : Option Path
  config : Option Path
  timezoneOffset : Option ClockOffset
  logLevel : Option Log.Level
  deriving DecidableEq, Repr

namespace Options

/-- Nothing is asked for. -/
def empty : Options := ⟨none, none, none, false, false, none, none, none, none⟩

/-- Why a command line is refused. -/
inductive Misuse where
  | ambiguous (argument : String) (spellings : List String)
  | missingValue (option : Opt)
  | needlessValue (option : Opt) (value : String)
  | noInteger (option : Opt) (value : String)
  | noLevel (option : Opt) (value : String)
  | unrecognized (arguments : List String)
  deriving DecidableEq, Repr

/-- A refusal that concerns one option. -/
def Misuse.about (o : Opt) (text : String) : String := "argument " ++ o.name ++ ": " ++ text

/-- The wording of a refusal. -/
def Misuse.message : Misuse → String
  | ambiguous a ss => "ambiguous option: " ++ a ++ " could match " ++ joined ", " ss
  | missingValue o => about o "expected one argument"
  | needlessValue o v => about o ("ignored explicit argument " ++ quoted v)
  | noInteger o v => about o ("invalid int value: " ++ quoted v)
  | noLevel o v =>
    about o ("invalid choice: " ++ quoted v ++ " (choose from " ++
      joined ", " (Log.Level.all.map fun l => quoted l.name) ++ ")")
  | unrecognized as => "unrecognized arguments: " ++ joined " " as

/-- Why options are not taken any further: the command line is refused, or help is asked for. -/
inductive Halt where
  | misuse (m : Misuse)
  | help
  deriving DecidableEq, Repr

/-- An option as an argument gives it: whether its spelling has two hyphens, and its value, if the argument holds one
after an equals sign or right after the letter. -/
structure Given where
  option : Opt
  isLong : Bool
  value : Option String
  deriving DecidableEq, Repr

/-- The argument after which all are plain. -/
def mark : String := "--"

/-- An argument by itself. -/
inductive Argument where
  | plain (text : String)
  | mark
  | option (given : Given)
  | unknown (text : String)
  deriving DecidableEq, Repr

/-- An argument in text. -/
def Argument.text? : Argument → Option String
  | plain s | unknown s => some s
  | mark => some Options.mark
  | option _ => none

/-- The text before the first equals sign, and the text after it, if there is one. -/
def splitEquals (cs : List Char) : List Char × Option (List Char) :=
  match cs.dropWhile (· != '=') with
  | [] => (cs, none)
  | _ :: value => (cs.takeWhile (· != '='), some value)

/-- The argument is spelled with two hyphens. -/
def isLongText (cs : List Char) : Bool := ['-', '-'].isPrefixOf cs

/-- The options that an argument may be short for. -/
def readings (cs : List Char) : List (String × Given) :=
  if isLongText cs then
    let (stem, value) := splitEquals cs
    (Opt.table.filter fun e => stem.isPrefixOf e.1.toList).map fun e =>
      (e.1, ⟨e.2, true, value.map String.ofList⟩)
  else
    let letter := String.ofList (cs.take 2)
    (Opt.table.filter fun e => e.1 = letter).map fun e =>
      (e.1, ⟨e.2, false, some (String.ofList (cs.drop 2))⟩)

/-- The option that an argument spells out, with a value after an equals sign or without one. -/
def spelledOut? (s : String) : Option Given :=
  let cs := s.toList
  match Opt.ofSpelling? s with
  | some o => some ⟨o, isLongText cs, none⟩
  | none =>
    match splitEquals cs with
    | (stem, some value) =>
      (Opt.ofSpelling? (String.ofList stem)).map fun o => ⟨o, isLongText cs, some (String.ofList value)⟩
    | (_, none) => none

/-- Take an argument by itself. -/
def classify (s : String) : Except Halt Argument :=
  let cs := s.toList
  if cs.head? ≠ some '-' ∨ cs.length = 1 then .ok (.plain s)
  else
    match spelledOut? s with
    | some g => .ok (.option g)
    | none =>
      match readings cs with
      | [r] => .ok (.option r.2)
      | [] => .ok (if isNegativeNumber cs || cs.contains ' ' then .plain s else .unknown s)
      | rs => .error (.misuse (.ambiguous s (rs.map Prod.fst)))

/-- Take every argument by itself. -/
def classifyAll : List String → Except Halt (List Argument)
  | [] => .ok []
  | s :: ss =>
    if s = mark then .ok (.mark :: ss.map Argument.plain)
    else do
      let a ← classify s
      let as ← classifyAll ss
      return a :: as

/-- An option ready to be taken. It has no value when it takes none, and when the mark stands for its value. -/
structure Act where
  option : Opt
  value : Option String
  deriving DecidableEq, Repr

/-- The mark as a value stands for none. -/
def Act.withValue (option : Opt) (value : String) : Act := ⟨option, if value = mark then none else some value⟩

/-- Take the offset of the clock. -/
def takeOffset (o : Options) : Option String → Except Halt Options
  | none => .ok { o with timezoneOffset := some .void }
  | some value =>
    match integer? value with
    | some n => .ok { o with timezoneOffset := some (.seconds n) }
    | none => .error (.misuse (.noInteger .timezoneOffset value))

/-- Take the level of records. -/
def takeLevel (o : Options) : Option String → Except Halt Options
  | none => .ok { o with logLevel := none }
  | some value =>
    match Log.Level.ofName? value with
    | some l => .ok { o with logLevel := some l }
    | none => .error (.misuse (.noLevel .logLevel value))

/-- Take an option. -/
def take (o : Options) (act : Act) : Except Halt Options :=
  match act.option with
  | .help => .error .help
  | .filename => .ok { o with filename := act.value.map Path.ofString }
  | .inject => .ok { o with inject := act.value }
  | .list => .ok { o with list := act.value }
  | .print => .ok { o with print := true }
  | .summary => .ok { o with summary := true }
  | .output => .ok { o with output := act.value.map Path.ofString }
  | .config => .ok { o with config := act.value.map Path.ofString }
  | .timezoneOffset => takeOffset o act.value
  | .logLevel => takeLevel o act.value

/-- The options in one argument; the last one still lacks its value when it is `lacking`. -/
structure Cluster where
  acts : List Act
  lacking : Option Opt
  deriving DecidableEq, Repr

/-- The options in one argument of which the last one stands alone; `before` are the others. -/
def Cluster.closedBy (before : List Act) (option : Opt) : Cluster :=
  if option.takesValue then ⟨before, some option⟩ else ⟨before ++ [⟨option, none⟩], none⟩

/-- The characters right after a one-letter option: its value, or more letters. `before` are the options taken so far. -/
def letters (before : List Act) (option : Opt) : List Char → Except Halt Cluster
  | [] => .error (.misuse (.needlessValue option ""))
  | c :: rest =>
    match Opt.ofSpelling? (String.ofList ['-', c]) with
    | none => .error (.misuse (.needlessValue option (String.ofList (c :: rest))))
    | some next =>
      let before := before ++ [⟨option, none⟩]
      if rest.isEmpty then .ok (.closedBy before next)
      else if next.takesValue then .ok ⟨before ++ [.withValue next (String.ofList rest)], none⟩
      else letters before next rest

/-- The options in one argument. -/
def cluster (g : Given) : Except Halt Cluster :=
  match g.value with
  | none => .ok (.closedBy [] g.option)
  | some value =>
    if g.option.takesValue then .ok ⟨[.withValue g.option value], none⟩
    else if g.isLong then .error (.misuse (.needlessValue g.option value))
    else letters [] g.option value.toList

/-- Take options one after the other. -/
def takeAll (o : Options) : List Act → Except Halt Options
  | [] => .ok o
  | act :: acts => do
    let o ← take o act
    takeAll o acts

/-- Take arguments one after the other, `extras` being those that are no options. -/
def takeArguments (o : Options) (extras : List String) : List Argument → Except Halt Options
  | [] => if extras.isEmpty then .ok o else .error (.misuse (.unrecognized extras))
  | .option g :: as => do
    let c ← cluster g
    match c.lacking, as with
    | none, as =>
      let o ← takeAll o c.acts
      takeArguments o extras as
    | some option, .plain value :: as =>
      let o ← takeAll o (c.acts ++ [.withValue option value])
      takeArguments o extras as
    | some option, _ => .error (.misuse (.missingValue option))
  | a :: as => takeArguments o (extras ++ a.text?.toList) as

/-- The options that arguments ask for. -/
def parse (arguments : List String) : Except Halt Options := do
  let as ← classifyAll arguments
  takeArguments empty [] as

end Options

end CalcImage

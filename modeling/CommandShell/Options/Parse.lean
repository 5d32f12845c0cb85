import CommandShell.Command.Argument
import CommandShell.Options.Basic

/-! # Reading a command line

First every word is classified, by spelling alone: an argument, the separator `--` or an option,
where an unambiguous start of a long option counts as the option. Then the options are taken in
order, each with its value; what is left over is an error. -/

namespace CommandShell.CommandLine

/-- An option that a word names, with the spelling it is known by and the value that stands in the
same word. -/
structure Match where
  /-- The option. -/
  option : OptionSpec
  /-- How the word spells it. -/
  spelling : String
  /-- The value in the same word. -/
  value : Option String
deriving Repr, DecidableEq

/-- What a word is. -/
inductive WordClass
  | argument
  | separator
  | unknownOption
  | option (m : Match)
deriving Repr, DecidableEq

/-- What is wrong with a command line. -/
inductive Mistake
  | ambiguous (word : String) (candidates : List String)
  | expectedValue (option : OptionSpec)
  | ignoredValue (option : OptionSpec) (value : String)
  | unrecognized (words : List String)
deriving Repr, DecidableEq

/-- The wording of a mistake. -/
def Mistake.message : Mistake → String
  | .ambiguous word candidates =>
    "ambiguous option: " ++ word ++ " could match " ++ ", ".intercalate candidates
  | .expectedValue o => "argument " ++ o.title ++ ": expected one argument"
  | .ignoredValue o value =>
    "argument " ++ o.title ++ ": ignored explicit argument " ++ Text.quoted value
  | .unrecognized words => "unrecognized arguments: " ++ " ".intercalate words

/-! ## Classifying words -/

/-- A text before and behind its first equals sign. -/
def splitEquals (cs : List Char) : List Char × Option (List Char) :=
  match cs.dropWhile (· != '=') with
  | [] => (cs, none)
  | _ :: value => (cs.takeWhile (· != '='), some value)

/-- A negative number in decimal notation; the digits before the point may be missing. -/
def isNegativeDecimal (cs : List Char) : Bool :=
  match cs with
  | '-' :: cs =>
    let cs := Argument.dropFinalNewline cs
    match cs.dropWhile Text.isDigit with
    | [] => !cs.isEmpty
    | '.' :: fraction => Argument.isDigits fraction
    | _ => false
  | _ => false

/-- The options that a word may stand for when it is spelled like none of them. -/
def candidates (p : ProgramSpec) (word : List Char) : List Match :=
  match word with
  | '-' :: '-' :: _ =>
    let (start, value) := splitEquals word
    p.spellings.filterMap fun (s, o) =>
      if start.isPrefixOf s.toList then
        some ⟨o, s, value.map String.ofList⟩
      else none
  | '-' :: c :: rest =>
    p.spellings.filterMap fun (s, o) =>
      if s.toList = ['-', c] then some ⟨o, s, some (String.ofList rest)⟩
      else if word.isPrefixOf s.toList then some ⟨o, s, none⟩
      else none
  | _ => []

/-- Classify a word that is not the separator. -/
def classify (p : ProgramSpec) (word : String) : Except Mistake WordClass :=
  match word.toList with
  | '-' :: rest =>
    match p.spellings.lookup word with
    | some o => .ok (.option ⟨o, word, none⟩)
    | none =>
      -- A hyphen by itself names no option.
      if rest.isEmpty then .ok .argument
      else
        let (start, value) := splitEquals word.toList
        match value, p.spellings.lookup (String.ofList start) with
        | some v, some o => .ok (.option ⟨o, String.ofList start, some (String.ofList v)⟩)
        | _, _ =>
          match candidates p word.toList with
          | [m] => .ok (.option m)
          | _ :: _ :: _ =>
            .error (.ambiguous word ((candidates p word.toList).map Match.spelling))
          | [] =>
            -- Words that look like no option of any program are arguments after all.
            if isNegativeDecimal word.toList || word.toList.contains ' ' then .ok .argument
            else .ok .unknownOption
  | _ => .ok .argument

/-- Classify all words; behind the separator there are only arguments. -/
def classifyAll (p : ProgramSpec) : List String → Except Mistake (List (String × WordClass))
  | [] => .ok []
  | w :: ws =>
    if w = "--" then .ok ((w, .separator) :: ws.map fun w => (w, .argument))
    else
      match classify p w with
      | .error e => .error e
      | .ok c => (classifyAll p ws).map ((w, c) :: ·)

/-! ## Taking options -/

/-- An option that was taken, with its value. A flag has none, and neither has an option whose value
is the separator in the same word. -/
structure Taken where
  /-- The option. -/
  option : OptionSpec
  /-- Its value. -/
  value : Option String
deriving Repr, DecidableEq

/-- An option that was taken with a value from its own word; the separator is no value. -/
def Taken.withValue (o : OptionSpec) (value : String) : Taken :=
  ⟨o, if value = "--" then none else some value⟩

/-- What the options in one word come to: those that are complete, and the option that still needs
the next word. -/
structure Cluster where
  /-- The complete options. -/
  taken : List Taken
  /-- The option that needs the next word. -/
  pending : Option OptionSpec
deriving Repr, DecidableEq

/-- Take an option that is spelled with one letter. What stands behind it in the word is its value,
or names more options if it takes none; `taken` are those before it. -/
def takeLetters (p : ProgramSpec) (o : OptionSpec) (taken : List Taken) :
    List Char → Except Mistake Cluster
  | [] => if o.takesValue then .ok ⟨taken, some o⟩ else .ok ⟨taken ++ [⟨o, none⟩], none⟩
  | c :: cs =>
    if o.takesValue then .ok ⟨taken ++ [.withValue o (String.ofList (c :: cs))], none⟩
    else
      match p.spellings.lookup (String.ofList ['-', c]) with
      | some next => takeLetters p next (taken ++ [⟨o, none⟩]) cs
      | none => .error (.ignoredValue o (String.ofList (c :: cs)))

/-- The options in the word of a match. -/
def takeMatch (p : ProgramSpec) (m : Match) : Except Mistake Cluster :=
  match m.value with
  | none =>
    if m.option.takesValue then .ok ⟨[], some m.option⟩ else .ok ⟨[⟨m.option, none⟩], none⟩
  | some value =>
    if m.option.takesValue then .ok ⟨[.withValue m.option value], none⟩
    else if m.spelling.toList.take 2 == ['-', '-'] || value == "" then
      .error (.ignoredValue m.option value)
    else takeLetters p m.option [] value.toList

/-- How reading a command line ends. -/
inductive Outcome
  | options (taken : List Taken)
  | help
  | mistake (m : Mistake)
deriving Repr, DecidableEq

/-- Whether help is among options that were taken. -/
def asksHelp (taken : List Taken) : Bool := taken.any fun t => t.option.kind == .help

/-- Take the options of classified words; `taken` and `leftOver` come from the words before. A
request for help ends the reading, so that later mistakes do not count. -/
def takeAll (p : ProgramSpec) (taken : List Taken) (leftOver : List String) :
    List (String × WordClass) → Outcome
  | [] => if leftOver.isEmpty then .options taken else .mistake (.unrecognized leftOver)
  | (_, .option m) :: rest =>
    match takeMatch p m with
    | .error e => .mistake e
    | .ok cluster =>
      match cluster.pending, rest with
      | none, rest =>
        if asksHelp cluster.taken then .help
        else takeAll p (taken ++ cluster.taken) leftOver rest
      | some o, (value, .argument) :: rest =>
        if asksHelp cluster.taken then .help
        else takeAll p (taken ++ cluster.taken ++ [⟨o, some value⟩]) leftOver rest
      | some o, _ => .mistake (.expectedValue o)
  | (w, _) :: rest => takeAll p taken (leftOver ++ [w]) rest

/-- Read the words of a command line. -/
def parse (p : ProgramSpec) (words : List String) : Outcome :=
  match classifyAll p words with
  | .error e => .mistake e
  | .ok classified => takeAll p [] [] classified

/-! ## Using options -/

/-- Whether a flag was given. -/
def hasFlag (taken : List Taken) (key : String) : Bool := taken.any fun t => t.option.key == key

/-- The last value that was given for an option, unless the option was not given at all. It may have
been given without value. -/
def lastValue? (taken : List Taken) (key : String) : Option (Option String) :=
  (taken.filter fun t => t.option.key == key).getLast?.map Taken.value

end CommandShell.CommandLine

import CommandShell.Command.Token
import CommandShell.FileTree
import CommandShell.Json.Decode
import CommandShell.Report
import CommandShell.Text.FileName
import CommandShell.Text.Utf8

/-! # Faults

Everything that can end an operation early, by cause, with the wording of each and the classes that
decide who catches it. -/

namespace CommandShell

/-- What is wrong with a text that is filled in at its percent signs. -/
inductive TemplateFault
  | incomplete
  | incompleteKey
  | unsupported (mark : CodePoint) (position : Nat)
  | unnamed (key : RawText)
  | widthTooBig
  | precisionTooBig
  | outOfMemory
  | mismatched
deriving Repr, DecidableEq

/-- Why an operation ends early. -/
inductive Fault
  | unknownCommand (name : Option String)
  | tokens (fault : Token.Fault)
  | unknownSetting (key : String)
  | rejected (report : Report)
  | badCount (text : String)
  | longNumber (digits : Nat)
  | noAssignment
  | badLevel (text : String)
  | wrongLevel
  | wrongKind
  | template (fault : TemplateFault)
  | danglingAlias (target : String)
  | noSession
  | system (errno : Errno) (paths : List RawText)
  | nulInPath
  | unencodable (flaw : Flaw)
  | undecodable (fault : Utf8.Fault)
  | noHome
  | noPath
  | nesting
  | noAttribute (kind name : String)
  | surplusArgument
  | noRedirect
  | exit (status : Nat)
  | raised (fault : Raise)

/-- The wording of a raised fault: keys are quoted, and an empty grammar fault shows its lack of
text. -/
def Raise.text (r : Raise) : String :=
  match r.family, r.message with
  | .lookup, some m => Text.quoted m
  | .grammar, none => "None"
  | _, some m => m
  | _, none => ""

/-- The wording of a template fault. -/
def TemplateFault.message : TemplateFault → String
  | .incomplete => "incomplete format"
  | .incompleteKey => "incomplete format key"
  | .unsupported mark position =>
    let shown := if 31 ≤ mark.number ∧ mark.number ≤ 126 then mark.toChar else '?'
    "unsupported format character '" ++ String.singleton shown ++ "' (0x" ++
      String.ofList (Nat.toDigits 16 mark.number) ++ ") at index " ++ toString position
  | .unnamed key => key.quoted
  | .widthTooBig => "width too big"
  | .precisionTooBig => "precision too big"
  | .outOfMemory => ""
  | .mismatched => "a real number is required"

namespace Fault

/-- A text that is no number as it is shown: quoted, and cut to 200 characters. -/
def countShown (t : String) : String := String.ofList ((Text.quoted t).toList.take 200)

/-- The wording of a fault. -/
def message : Fault → String
  | unknownCommand name => "Unknown command: " ++ name.getD "None"
  | tokens f => f.message
  | unknownSetting key => "Unknown config key: " ++ key
  | rejected r => r.message
  | badCount t => "invalid literal for int() with base 10: " ++ countShown t
  | longNumber digits =>
    "Exceeds the limit (" ++ toString Json.maxDigits ++
      " digits) for integer string conversion: value has " ++ toString digits ++
      " digits; use sys.set_int_max_str_digits() to increase the limit"
  | noAssignment => "not enough values to unpack (expected 2, got 1)"
  | badLevel t => "Unknown level: " ++ Text.quoted t
  | wrongLevel => "Level not an integer or a valid string"
  | wrongKind => "a value of another kind is required"
  | template f => f.message
  | danglingAlias target => Text.quoted target
  | noSession => Text.quoted "session"
  | system errno paths =>
    let places := " -> ".intercalate (paths.map RawText.quoted)
    "[Errno " ++ toString errno.number ++ "] " ++ errno.text ++
      (if paths.isEmpty then "" else ": " ++ places)
  | nulInPath => "embedded null byte"
  | unencodable flaw => flaw.message
  | undecodable f => f.message
  | noHome => "Could not determine home directory."
  | noPath => "a path is required"
  | nesting => "maximum recursion depth exceeded"
  | noAttribute kind name => "'" ++ kind ++ "' object has no attribute '" ++ name ++ "'"
  | surplusArgument => "pop expected at most 1 argument, got 2"
  | noRedirect => "pop from empty list"
  | exit status => toString status
  | raised r => r.text

/-- Whether a fault is one of a bad value, which settings and line reading recover from. -/
def isValue : Fault → Bool
  | tokens _ => true
  | unknownSetting _ => true
  | rejected _ => true
  | badCount _ => true
  | longNumber _ => true
  | noAssignment => true
  | badLevel _ => true
  | template .incomplete => true
  | template .incompleteKey => true
  | template (.unsupported _ _) => true
  | template .widthTooBig => true
  | template .precisionTooBig => true
  | nulInPath => true
  | unencodable _ => true
  | undecodable _ => true
  | raised r => r.family == .value
  | _ => false

/-- Whether a fault stays within the shell. The others end the whole run: a request to exit, and
what a script raises to escape. -/
def isOrdinary : Fault → Bool
  | exit _ => false
  | raised r => r.family != .escaping
  | _ => true

end Fault

end CommandShell

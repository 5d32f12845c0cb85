import CommandShell.Text.Blank
import CommandShell.Text.Digit

/-! # Whole numbers in text

Reading a whole number: blanks around it, a sign, digits of any script, and single underscores
between digits. -/

namespace CommandShell.Text

/-- Why a text is no whole number. -/
inductive WholeFault
  | invalid
  | oversized (digits : Nat)
deriving Repr, DecidableEq

/-- A blank beside a number: any blank but the information separators. -/
def isNumberBlank (c : Char) : Bool := isBlank c && !(0x1C ≤ c.toNat && c.toNat ≤ 0x1F)

/-- The number that digits of any script write. -/
def digitsValue (ds : List Char) : Nat :=
  ds.foldl (fun n d => n * 10 + (digitValue? d).getD 0) 0

/-- Read a whole number of at most `limit` digits. Too many digits are reported before anything
that stands behind them. -/
def readWhole (limit : Nat) (cs : List Char) : Except WholeFault Int :=
  let cs := cs.dropWhile isNumberBlank
  let (negative, cs) := match cs with
    | '-' :: r => (true, r)
    | '+' :: r => (false, r)
    | r => (false, r)
  let run := cs.takeWhile fun c => isDigit c || c == '_'
  let groups := splitWhere (· == '_') run
  if groups.any List.isEmpty then .error .invalid
  else
    let ds := groups.flatten
    if limit < ds.length then .error (.oversized ds.length)
    else if (cs.drop run.length).all isNumberBlank then
      let n : Int := digitsValue ds
      .ok (if negative then -n else n)
    else .error .invalid

end CommandShell.Text

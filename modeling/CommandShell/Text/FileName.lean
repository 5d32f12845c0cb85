import CommandShell.Text.Quoted

/-! # Texts that name files

The name of a file is a sequence of bytes. A text gives such a name when each of its surrogates
stands for a byte (`CodePoint.isByte`); otherwise it has a flaw, and the first of its flaws is
reported. -/

namespace CommandShell

/-- A stretch of surrogates that names no file: it starts at the first that stands for no byte and
ends where a character follows. -/
structure Flaw where
  /-- The first surrogate of the stretch. -/
  first : CodePoint
  /-- How many code points stand before it. -/
  position : Nat
  /-- How many surrogates follow the first. -/
  more : Nat
deriving Repr, DecidableEq

/-- The wording of a flaw. -/
def Flaw.message (f : Flaw) : String :=
  let place :=
    if f.more = 0 then
      "character '" ++ String.ofList (Text.quotePoint '\'' f.first) ++ "' in position " ++
        toString f.position
    else
      "characters in position " ++ toString f.position ++ "-" ++ toString (f.position + f.more)
  "'utf-8' codec can't encode " ++ place ++ ": surrogates not allowed"

/-- The first flaw of some code points, with `position` more before them. -/
def Flaw.find? (position : Nat) : List CodePoint → Option Flaw
  | [] => none
  | p :: ps =>
    if p.isSurrogate && !p.isByte then
      some ⟨p, position, (ps.takeWhile CodePoint.isSurrogate).length⟩
    else find? (position + 1) ps

/-- The first flaw of a text. -/
def RawText.flaw? (t : RawText) : Option Flaw := Flaw.find? 0 t.points

/-- A string names a file as it is. -/
theorem RawText.flaw?_ofString (s : String) : (RawText.ofString s).flaw? = none := by
  have h (n : Nat) (cs : List Char) : Flaw.find? n (cs.map .char) = none := by
    induction cs generalizing n with
    | nil => rfl
    | cons c cs ih => simp [Flaw.find?, CodePoint.isSurrogate, ih]
  exact h 0 s.toList

end CommandShell

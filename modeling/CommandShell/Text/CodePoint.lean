/-! # Text of code points

Text from outside may hold surrogates: halves of a character without the other half, which no
`String` can hold. `RawText` is text as a list of code points. Every string is such a text
(`ofString`), and a text reads back as a string when it holds no surrogates
(`toString_ofString`). -/

namespace CommandShell

/-- A code point: a character, or a surrogate by its offset from U+D800. -/
inductive CodePoint
  | char (c : Char)
  | surrogate (offset : Fin 0x800)
deriving Repr, DecidableEq

namespace CodePoint

/-- The number of a code point. -/
def number : CodePoint → Nat
  | char c => c.toNat
  | surrogate offset => 0xD800 + offset

/-- The code point that a single UTF-16 unit stands for. -/
def ofUnit (unit : Nat) : CodePoint :=
  if h : 0xD800 ≤ unit ∧ unit < 0xE000 then surrogate ⟨unit - 0xD800, by omega⟩
  else char (Char.ofNat unit)

/-- Whether a code point is a surrogate. -/
def isSurrogate : CodePoint → Bool
  | char _ => false
  | surrogate _ => true

/-- Whether a code point is a surrogate that stands for a byte in the name of a file. Those from
U+DC80 to U+DCFF stand for the bytes from 80 to FF. -/
def isByte : CodePoint → Bool
  | char _ => false
  | surrogate offset => decide (0x480 ≤ offset.val ∧ offset.val < 0x500)

/-- The character of a code point; a surrogate has none and counts as U+FFFD. -/
def toChar : CodePoint → Char
  | char c => c
  | surrogate _ => Char.ofNat 0xFFFD

end CodePoint

/-- A text that may hold surrogates. -/
structure RawText where
  /-- The code points of the text. -/
  points : List CodePoint
deriving Repr, DecidableEq, Inhabited

namespace RawText

/-- A string as a text. -/
def ofString (s : String) : RawText := ⟨s.toList.map .char⟩

instance : Coe String RawText := ⟨ofString⟩

/-- A text as a string, with U+FFFD in the place of each surrogate. -/
def toString (t : RawText) : String := String.ofList (t.points.map CodePoint.toChar)

/-- Whether a text holds a surrogate. -/
def hasSurrogate (t : RawText) : Bool := t.points.any CodePoint.isSurrogate

instance : Append RawText := ⟨fun s t => ⟨s.points ++ t.points⟩⟩

/-- Texts one after the other, with a separator between them. -/
def intercalate (separator : RawText) (ts : List RawText) : RawText :=
  ⟨separator.points.intercalate (ts.map RawText.points)⟩

/-- The string of a concatenation is the concatenation of the strings. -/
@[simp] theorem toString_append (s t : RawText) :
    (s ++ t).toString = s.toString ++ t.toString := by
  change String.ofList ((s.points ++ t.points).map CodePoint.toChar) = _
  simp [toString, String.ofList_append]

/-- A string is the same again after it was taken as a raw text. -/
theorem toString_ofString (s : String) : (ofString s).toString = s := by
  have h : CodePoint.toChar ∘ CodePoint.char = id := rfl
  simp [ofString, toString, List.map_map, h]

/-- A raw text that was made from a string has no lone surrogates. -/
theorem hasSurrogate_ofString (s : String) : (ofString s).hasSurrogate = false := by
  simp [ofString, hasSurrogate, CodePoint.isSurrogate]

/-- Different strings are different texts. -/
theorem ofString_inj {s t : String} : ofString s = ofString t ↔ s = t :=
  ⟨fun h => by rw [← toString_ofString s, h, toString_ofString], fun h => by rw [h]⟩

end RawText

end CommandShell

/-! # UTF-8

Reading bytes as text. `pieces` cuts any bytes into characters and stretches of junk, where a
stretch is the longest start of a character that the next byte breaks off (or a single byte that
starts no character). Strict reading (`decode`) stops at the first stretch and says why; lenient
reading (`decodeLossy`) puts U+FFFD for each. -/

namespace CommandShell.Utf8

/-- What is wrong with a stretch of junk. -/
inductive Defect
  | start
  | continuation
  | truncated
deriving Repr, DecidableEq

/-- The wording of a defect. -/
def Defect.message : Defect → String
  | .start => "invalid start byte"
  | .continuation => "invalid continuation byte"
  | .truncated => "unexpected end of data"

/-- A stretch of bytes: a character, or junk with its defect. -/
inductive Piece
  | char (c : Char) (width : Nat)
  | junk (defect : Defect) (width : Nat)
deriving Repr, DecidableEq

/-- How many bytes a piece covers. -/
def Piece.width : Piece → Nat
  | .char _ n => n
  | .junk _ n => n

/-- What the first byte of a character tells: how many bytes follow, between which limits the next
one lies, and the bits that the first byte contributes. -/
structure Lead where
  /-- How many bytes follow. -/
  following : Nat
  /-- The least second byte. -/
  low : Nat
  /-- The greatest second byte. -/
  high : Nat
  /-- The bits of the first byte. -/
  bits : Nat
deriving Repr, DecidableEq

/-- The lead of a character that takes more than one byte. -/
def lead? (b : Nat) : Option Lead :=
  if 0xC2 ≤ b ∧ b ≤ 0xDF then some ⟨1, 0x80, 0xBF, b - 0xC0⟩
  else if b = 0xE0 then some ⟨2, 0xA0, 0xBF, 0⟩
  else if b = 0xED then some ⟨2, 0x80, 0x9F, 0xD⟩
  else if 0xE1 ≤ b ∧ b ≤ 0xEF then some ⟨2, 0x80, 0xBF, b - 0xE0⟩
  else if b = 0xF0 then some ⟨3, 0x90, 0xBF, 0⟩
  else if 0xF1 ≤ b ∧ b ≤ 0xF3 then some ⟨3, 0x80, 0xBF, b - 0xF0⟩
  else if b = 0xF4 then some ⟨3, 0x80, 0x8F, 4⟩
  else none

/-- Read the bytes that follow a lead: `seen` bytes are read, `bits` is their value, `missing` are
still to come and the next one lies between `low` and `high`. -/
def continued (seen bits : Nat) : Nat → Nat → Nat → List UInt8 → Piece
  | 0, _, _, _ => .char (Char.ofNat bits) seen
  | _ + 1, _, _, [] => .junk .truncated seen
  | missing + 1, low, high, b :: bs =>
    if low ≤ b.toNat ∧ b.toNat ≤ high then
      continued (seen + 1) (bits * 64 + (b.toNat - 0x80)) missing 0x80 0xBF bs
    else .junk .continuation seen

/-- The piece that starts with `b` and goes on in `bs`. -/
def piece (b : UInt8) (bs : List UInt8) : Piece :=
  if b.toNat < 0x80 then .char (Char.ofNat b.toNat) 1
  else match lead? b.toNat with
    | none => .junk .start 1
    | some l => continued 1 l.bits l.following l.low l.high bs

/-- The pieces of a text in bytes, in order. -/
def pieces : List UInt8 → List Piece
  | [] => []
  | b :: bs =>
    let p := piece b bs
    p :: pieces (bs.drop (p.width - 1))
termination_by bs => bs.length
decreasing_by simp only [List.length_drop, List.length_cons]; omega

/-! ## Strict reading -/

/-- Where and why strict reading stops. -/
structure Fault where
  /-- What is wrong. -/
  defect : Defect
  /-- The position of the first byte of the stretch. -/
  position : Nat
  /-- The bytes of the stretch. -/
  bytes : List UInt8
deriving Repr, DecidableEq

/-- Read the pieces of `bs`, the first of which starts at `position`. -/
def readPieces (position : Nat) (bs : List UInt8) : List Piece → Except Fault (List Char)
  | [] => .ok []
  | .char c n :: ps => (readPieces (position + n) (bs.drop n) ps).map (c :: ·)
  | .junk defect n :: _ => .error ⟨defect, position, bs.take n⟩

/-- Read bytes as text, or tell the first stretch that is none. -/
def decode (bs : List UInt8) : Except Fault (List Char) := readPieces 0 bs (pieces bs)

/-- Two lower-case hexadecimal digits. -/
def byteText (b : UInt8) : String :=
  String.ofList [Nat.digitChar (b.toNat / 16), Nat.digitChar (b.toNat % 16)]

/-- The wording of a fault: one byte is shown, of several only the positions. -/
def Fault.message (f : Fault) : String :=
  let place := match f.bytes with
    | [b] => "byte 0x" ++ byteText b ++ " in position " ++ toString f.position
    | bs => "bytes in position " ++ toString f.position ++ "-" ++
        toString (f.position + bs.length - 1)
  "'utf-8' codec can't decode " ++ place ++ ": " ++ f.defect.message

/-! ## Lenient reading -/

/-- The character that stands for a piece. -/
def Piece.replaced : Piece → Char
  | .char c _ => c
  | .junk _ _ => Char.ofNat 0xFFFD

/-- Read bytes as text, with U+FFFD for every stretch that is none. -/
def decodeLossy (bs : List UInt8) : List Char := (pieces bs).map Piece.replaced

/-! ## Writing -/

/-- The bytes of a text. -/
def encode (cs : List Char) : List UInt8 := cs.flatMap String.utf8EncodeChar

/-- No characters are encoded as no bytes. -/
@[simp] theorem encode_nil : encode [] = [] := rfl

/-- The bytes of a text are those of its first character, then those of the rest. -/
@[simp] theorem encode_cons (c : Char) (cs : List Char) :
    encode (c :: cs) = String.utf8EncodeChar c ++ encode cs := rfl

/-- Encoding respects concatenation. -/
@[simp] theorem encode_append (cs ds : List Char) : encode (cs ++ ds) = encode cs ++ encode ds := by
  simp [encode]

end CommandShell.Utf8

import CommandShell.Text.Utf8

/-! # Writing and reading UTF-8

Every text reads back from its bytes (`decode_encode`): the bytes of a character are one piece of
the reader, whatever follows them. -/

namespace CommandShell.Utf8

/-- A number below 256 is its byte. -/
theorem toNat_ofNat_byte {n : Nat} (h : n < 256) : (UInt8.ofNat n).toNat = n := by
  rw [UInt8.toNat_ofNat']
  exact Nat.mod_eq_of_lt h

/-- The reader takes a byte that follows the lead of a character between the limits it asks for. -/
theorem continued_cons {low high n : Nat} (hn : n < 64) (hlow : low ≤ n + 0x80)
    (hhigh : n + 0x80 ≤ high) (seen bits missing : Nat) (bs : List UInt8) :
    continued seen bits (missing + 1) low high (UInt8.ofNat (n + 0x80) :: bs)
      = continued (seen + 1) (bits * 64 + n) missing 0x80 0xBF bs := by
  rw [continued, toNat_ofNat_byte (by omega), if_pos ⟨hlow, hhigh⟩, Nat.add_sub_cancel]

/-! ## Leads

The number of a character tells its lead. The limits for the second byte leave out what has a
shorter form, the surrogates, and what lies beyond the last character. -/

/-- The lead of two bytes asks for one more, and has the upper bits of the number. -/
theorem lead?_of_two {v : Nat} (h : 0x7f < v) (h' : v ≤ 0x7ff) :
    lead? (v / 64 % 0x20 + 0xc0) = some ⟨1, 0x80, 0xBF, v / 64⟩ := by
  rw [lead?, if_pos (by omega), show v / 64 % 0x20 + 0xc0 - 0xC0 = v / 64 by omega]

/-- The lead of three bytes asks for two more, and lets the second byte of the number pass. -/
theorem lead?_of_three {v : Nat} (h : 0x7ff < v) (h' : v ≤ 0xffff)
    (hv : v < 0xD800 ∨ 0xDFFF < v) :
    ∃ low high, lead? (v / 4096 % 0x10 + 0xe0) = some ⟨2, low, high, v / 4096⟩ ∧
      low ≤ v / 64 % 0x40 + 0x80 ∧ v / 64 % 0x40 + 0x80 ≤ high := by
  unfold lead?
  rw [if_neg (by omega)]
  -- The first lead leaves out what has a shorter form, and 0xED the surrogates.
  by_cases h₀ : v / 4096 % 0x10 + 0xe0 = 0xE0
  · rw [if_pos h₀, show v / 4096 = 0 by omega]
    exact ⟨0xA0, 0xBF, rfl, by omega, by omega⟩
  rw [if_neg h₀]
  by_cases hd : v / 4096 % 0x10 + 0xe0 = 0xED
  · rw [if_pos hd, show v / 4096 = 0xD by omega]
    exact ⟨0x80, 0x9F, rfl, by omega, by omega⟩
  rw [if_neg hd, if_pos (by omega), show v / 4096 % 0x10 + 0xe0 - 0xE0 = v / 4096 by omega]
  exact ⟨0x80, 0xBF, rfl, by omega, by omega⟩

/-- The lead of four bytes asks for three more, and lets the second byte of the number pass. -/
theorem lead?_of_four {v : Nat} (h : 0xffff < v) (h' : v < 0x110000) :
    ∃ low high, lead? (v / 262144 % 0x08 + 0xf0) = some ⟨3, low, high, v / 262144⟩ ∧
      low ≤ v / 4096 % 0x40 + 0x80 ∧ v / 4096 % 0x40 + 0x80 ≤ high := by
  unfold lead?
  rw [if_neg (by omega), if_neg (by omega), if_neg (by omega), if_neg (by omega)]
  -- The first lead leaves out what has a shorter form, and the last what lies beyond.
  by_cases h₀ : v / 262144 % 0x08 + 0xf0 = 0xF0
  · rw [if_pos h₀, show v / 262144 = 0 by omega]
    exact ⟨0x90, 0xBF, rfl, by omega, by omega⟩
  rw [if_neg h₀]
  by_cases h₁ : 0xF1 ≤ v / 262144 % 0x08 + 0xf0 ∧ v / 262144 % 0x08 + 0xf0 ≤ 0xF3
  · rw [if_pos h₁, show v / 262144 % 0x08 + 0xf0 - 0xF0 = v / 262144 by omega]
    exact ⟨0x80, 0xBF, rfl, by omega, by omega⟩
  rw [if_neg h₁, if_pos (by omega), show v / 262144 = 4 by omega]
  exact ⟨0x80, 0x8F, rfl, by omega, by omega⟩

/-! ## Characters and texts -/

/-- The bytes of a character are one piece, whatever follows. -/
theorem piece_encodeChar (c : Char) (rest : List UInt8) :
    ∃ b bs, String.utf8EncodeChar c = b :: bs ∧
      piece b (bs ++ rest) = .char c (bs.length + 1) := by
  have hv : c.toNat < 0xD800 ∨ 0xDFFF < c.toNat ∧ c.toNat < 0x110000 := c.valid
  have hc : Char.ofNat c.toNat = c := Char.ofNat_toNat c
  have hval : c.val.toNat = c.toNat := rfl
  unfold String.utf8EncodeChar
  simp only [hval]
  generalize c.toNat = v at hv hc
  -- One, two, three or four bytes, as the number of the character has it.
  by_cases h₁ : v ≤ 0x7f
  · refine ⟨_, _, if_pos h₁, ?_⟩
    rw [piece, toNat_ofNat_byte (by omega), if_pos (by omega), hc]
    rfl
  rw [if_neg h₁]
  by_cases h₂ : v ≤ 0x7ff
  · refine ⟨_, _, if_pos h₂, ?_⟩
    rw [piece, toNat_ofNat_byte (by omega), if_neg (by omega), lead?_of_two (by omega) h₂]
    show continued 1 (v / 64) 1 0x80 0xBF (UInt8.ofNat (v % 0x40 + 0x80) :: rest) = _
    rw [continued_cons (by omega) (by omega) (by omega), continued,
      show v / 64 * 64 + v % 64 = v by omega, hc]
    rfl
  rw [if_neg h₂]
  by_cases h₃ : v ≤ 0xffff
  · refine ⟨_, _, if_pos h₃, ?_⟩
    obtain ⟨low, high, hlead, hlow, hhigh⟩ := lead?_of_three (by omega) h₃ (by omega)
    rw [piece, toNat_ofNat_byte (by omega), if_neg (by omega), hlead]
    show continued 1 (v / 4096) 2 low high (UInt8.ofNat (v / 64 % 0x40 + 0x80) ::
      UInt8.ofNat (v % 0x40 + 0x80) :: rest) = _
    rw [continued_cons (by omega) hlow hhigh, continued_cons (by omega) (by omega) (by omega),
      continued, show (v / 4096 * 64 + v / 64 % 64) * 64 + v % 64 = v by omega, hc]
    rfl
  · refine ⟨_, _, if_neg h₃, ?_⟩
    obtain ⟨low, high, hlead, hlow, hhigh⟩ := lead?_of_four (by omega) (by omega : v < 0x110000)
    rw [piece, toNat_ofNat_byte (by omega), if_neg (by omega), hlead]
    show continued 1 (v / 262144) 3 low high (UInt8.ofNat (v / 4096 % 0x40 + 0x80) ::
      UInt8.ofNat (v / 64 % 0x40 + 0x80) :: UInt8.ofNat (v % 0x40 + 0x80) :: rest) = _
    rw [continued_cons (by omega) hlow hhigh, continued_cons (by omega) (by omega) (by omega),
      continued_cons (by omega) (by omega) (by omega), continued,
      show ((v / 262144 * 64 + v / 4096 % 64) * 64 + v / 64 % 64) * 64 + v % 64 = v by omega, hc]
    rfl

/-- The first piece of a text is its first character. -/
theorem pieces_encode_cons (c : Char) (cs : List Char) :
    pieces (encode (c :: cs))
      = .char c (String.utf8EncodeChar c).length :: pieces (encode cs) := by
  obtain ⟨b, bs, hbytes, hpiece⟩ := piece_encodeChar c (encode cs)
  rw [encode_cons, hbytes, List.cons_append, pieces, hpiece]
  simp [Piece.width]

/-- The pieces of a text are read as its characters, wherever they start. -/
theorem readPieces_encode (position : Nat) (cs : List Char) :
    readPieces position (encode cs) (pieces (encode cs)) = .ok cs := by
  induction cs generalizing position with
  | nil =>
    rw [encode_nil, pieces]
    rfl
  | cons c cs ih =>
    rw [pieces_encode_cons, readPieces, encode_cons, List.drop_left, ih]
    rfl

/-- **Every text reads back from its bytes.** -/
theorem decode_encode (cs : List Char) : decode (encode cs) = .ok cs := readPieces_encode 0 cs

end CommandShell.Utf8

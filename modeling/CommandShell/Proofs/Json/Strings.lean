import CommandShell.Json.Decode
import CommandShell.Json.Encode
import Mathlib.Data.List.Chain

/-! # Strings read back

A text reads back from the JSON string that is written for it (`string_encodeString`), unless a
character of it stands there as its two surrogates: then these are read as the character. A text that
was read is never of that kind (`joined_of_string`). -/

namespace CommandShell

namespace CodePoint

/-- A surrogate that is the first half of a character. -/
def isHigh : CodePoint → Bool
  | char _ => false
  | surrogate offset => decide (offset.val < 0x400)

/-- A surrogate that is the second half of a character. -/
def isLow : CodePoint → Bool
  | char _ => false
  | surrogate offset => decide (0x400 ≤ offset.val)

/-- A UTF-16 unit that is the number of a code point stands for that code point. -/
theorem ofUnit_number {p : CodePoint} (h : p.number ≤ 0xFFFF) : ofUnit p.number = p := by
  cases p with
  | char c =>
    -- No character has the number of a surrogate.
    have hv : c.toNat < 0xD800 ∨ 0xDFFF < c.toNat ∧ c.toNat < 0x110000 := c.valid
    have hn : ¬(0xD800 ≤ c.toNat ∧ c.toNat < 0xE000) := by omega
    show ofUnit c.toNat = _
    rw [ofUnit, dif_neg hn, Char.ofNat_toNat]
  | surrogate offset =>
    have hoffset := offset.isLt
    have hn : 0xD800 ≤ 0xD800 + offset.val ∧ 0xD800 + offset.val < 0xE000 := by omega
    show ofUnit (0xD800 + offset.val) = _
    rw [ofUnit, dif_pos hn]
    simp only [Nat.add_sub_cancel_left, Fin.eta]

/-- First halves have the numbers from D800 to DBFF. -/
theorem isHigh_iff_number {p : CodePoint} :
    p.isHigh = true ↔ 0xD800 ≤ p.number ∧ p.number ≤ 0xDBFF := by
  cases p with
  | char c =>
    have hv : c.toNat < 0xD800 ∨ 0xDFFF < c.toNat ∧ c.toNat < 0x110000 := c.valid
    show false = true ↔ 0xD800 ≤ c.toNat ∧ c.toNat ≤ 0xDBFF
    constructor
    · intro h
      cases h
    · omega
  | surrogate offset =>
    show decide (offset.val < 0x400) = true ↔
      0xD800 ≤ 0xD800 + offset.val ∧ 0xD800 + offset.val ≤ 0xDBFF
    rw [decide_eq_true_iff]
    omega

/-- Second halves have the numbers from DC00 to DFFF. -/
theorem isLow_iff_number {p : CodePoint} :
    p.isLow = true ↔ 0xDC00 ≤ p.number ∧ p.number ≤ 0xDFFF := by
  cases p with
  | char c =>
    have hv : c.toNat < 0xD800 ∨ 0xDFFF < c.toNat ∧ c.toNat < 0x110000 := c.valid
    show false = true ↔ 0xDC00 ≤ c.toNat ∧ c.toNat ≤ 0xDFFF
    constructor
    · intro h
      cases h
    · omega
  | surrogate offset =>
    have hoffset := offset.isLt
    show decide (0x400 ≤ offset.val) = true ↔
      0xDC00 ≤ 0xD800 + offset.val ∧ 0xD800 + offset.val ≤ 0xDFFF
    rw [decide_eq_true_iff]
    omega

/-- Two code points that are not the halves of one character. -/
def Apart (p q : CodePoint) : Prop := ¬(p.isHigh = true ∧ q.isLow = true)

instance (p q : CodePoint) : Decidable (Apart p q) := inferInstanceAs (Decidable (¬_))

end CodePoint

/-- A text is **joined** when no character of it stands there as its two surrogates. -/
def RawText.Joined (t : RawText) : Prop := t.points.IsChain CodePoint.Apart

/-- A string is joined: it holds no surrogates at all. -/
theorem RawText.joined_of_hasSurrogate {t : RawText} (h : t.hasSurrogate = false) : t.Joined := by
  have hall : ∀ p ∈ t.points, p.isSurrogate = false := by
    intro p hp
    have := List.any_eq_false.mp h p hp
    simpa using this
  obtain ⟨ps⟩ := t
  show ps.IsChain CodePoint.Apart
  induction ps with
  | nil => exact .nil
  | cons p ps ih =>
    refine List.IsChain.cons (ih ?_ fun q hq => hall q (List.mem_cons_of_mem _ hq)) ?_
    · exact List.any_eq_false.mpr fun q hq => by
        simp [hall q (List.mem_cons_of_mem _ hq)]
    · -- Only a surrogate can be a first half.
      intro q _ hpq
      have hp := hall p List.mem_cons_self
      cases p with
      | char c => exact absurd hpq.1 (by simp [CodePoint.isHigh])
      | surrogate o => exact absurd hp (by simp [CodePoint.isSurrogate])

/-- A string has no halves that could be joined. -/
@[simp] theorem RawText.joined_ofString (s : String) : (RawText.ofString s).Joined :=
  joined_of_hasSurrogate (hasSurrogate_ofString s)

namespace Json

/-! ## Hexadecimal escapes -/

/-- A hexadecimal digit has the value that it was written for. -/
theorem hexValue?_digitChar : ∀ d < 16, hexValue? (Nat.digitChar d) = some d := by decide

/-- A number of sixteen bits is written by its four digits. -/
theorem hexadecimal_four {n : Nat} (h : n ≤ 0xFFFF) :
    Text.hexadecimal 4 n = [Nat.digitChar (n / 4096), Nat.digitChar (n / 256 % 16),
      Nat.digitChar (n / 16 % 16), Nat.digitChar (n % 16)] := by
  have hd (m : Nat) (hm : m < 16) : Nat.toDigits 16 m = [Nat.digitChar m] :=
    Nat.toDigits_of_lt_base hm
  have hs (m : Nat) (hm : 16 ≤ m) :
      Nat.toDigits 16 m = Nat.toDigits 16 (m / 16) ++ [Nat.digitChar (m % 16)] :=
    Nat.toDigits_of_base_le (by omega) hm
  have h₂ : n / 16 / 16 = n / 256 := by omega
  have h₃ : n / 256 / 16 = n / 4096 := by omega
  have hzero : Nat.digitChar 0 = '0' := rfl
  unfold Text.hexadecimal
  -- As many digits as the number has, and zeros in front of them.
  by_cases ha : n < 16
  · rw [hd n ha, show n / 4096 = 0 by omega, show n / 256 % 16 = 0 by omega,
      show n / 16 % 16 = 0 by omega, show n % 16 = n by omega]
    rfl
  by_cases hb : n < 256
  · rw [hs n (by omega), hd (n / 16) (by omega), show n / 4096 = 0 by omega,
      show n / 256 % 16 = 0 by omega, show n / 16 % 16 = n / 16 by omega]
    rfl
  by_cases hc : n < 4096
  · rw [hs n (by omega), hs (n / 16) (by omega), h₂, hd (n / 256) (by omega),
      show n / 4096 = 0 by omega, show n / 256 % 16 = n / 256 by omega]
    rfl
  · rw [hs n (by omega), hs (n / 16) (by omega), h₂, hs (n / 256) (by omega), h₃,
      hd (n / 4096) (by omega)]
    rfl

/-- Four written digits read back. -/
theorem hexQuad?_hexadecimal {n : Nat} (h : n ≤ 0xFFFF) (rest : List Char) :
    hexQuad? (Text.hexadecimal 4 n ++ rest) = some n := by
  have hn : ((n / 4096 * 16 + n / 256 % 16) * 16 + n / 16 % 16) * 16 + n % 16 = n := by omega
  rw [hexadecimal_four h]
  simp only [List.cons_append, hexQuad?, hexValue?_digitChar (n / 4096) (by omega),
    hexValue?_digitChar (n / 256 % 16) (by omega), hexValue?_digitChar (n / 16 % 16) (by omega),
    hexValue?_digitChar (n % 16) (by omega)]
  exact congrArg some hn

/-- Behind its digits stands the rest. -/
theorem drop_hexadecimal {n : Nat} (h : n ≤ 0xFFFF) (rest : List Char) :
    (Text.hexadecimal 4 n ++ rest).drop 4 = rest := by
  rw [hexadecimal_four h]
  rfl

/-- Behind the digits of two escapes stands the rest. -/
theorem drop_hexadecimal_pair {m n : Nat} (hm : m ≤ 0xFFFF) (hn : n ≤ 0xFFFF) (rest : List Char) :
    (Text.hexadecimal 4 m ++ '\\' :: 'u' :: (Text.hexadecimal 4 n ++ rest)).drop 10 = rest := by
  rw [hexadecimal_four hm, hexadecimal_four hn]
  rfl

/-! ## One code point -/

/-- A text does not go on with the escape of a second half. -/
def NoLowEscape (cs : List Char) : Prop :=
  ∀ more, cs = '\\' :: 'u' :: more →
    ∃ low, hexQuad? more = some low ∧ ¬(0xDC00 ≤ low ∧ low ≤ 0xDFFF)

/-- No escape of a second half starts without a backslash. -/
theorem noLowEscape_of_head {c : Char} (h : c ≠ '\\') (cs : List Char) : NoLowEscape (c :: cs) := by
  intro more heq
  exact absurd (List.cons.inj heq).1 h

/-- The escape of a unit reads back as that unit, unless the text goes on with the other half. -/
theorem unicodeEscape_unit {n : Nat} (hn : n ≤ 0xFFFF) {cs : List Char} (hne : cs ≠ [])
    (hlow : 0xD800 ≤ n ∧ n ≤ 0xDBFF → NoLowEscape cs) (position : Nat) :
    unicodeEscape ⟨Text.hexadecimal 4 n ++ cs, position⟩ = .ok (.ofUnit n, 4) := by
  have hmore : (Text.hexadecimal 4 n ++ cs).drop 4 = cs := drop_hexadecimal hn cs
  unfold unicodeEscape
  simp only [hmore, hexQuad?_hexadecimal hn]
  -- The reader looks for a second half only behind a first one.
  rw [if_neg (by simpa using hne)]
  split
  · rename_i more
    split
    · rename_i hhigh
      obtain ⟨low, hquad, hrange⟩ := hlow ⟨hhigh.1, hhigh.2.1⟩ more rfl
      rw [hquad]
      exact if_neg hrange
    · rfl
  · rfl

/-- The escapes of both halves read back as the character. -/
theorem unicodeEscape_pair {n : Nat} (hn : n < 0x100000) {cs : List Char} (hne : cs ≠ [])
    (position : Nat) :
    unicodeEscape ⟨Text.hexadecimal 4 (0xD800 + n / 0x400) ++
        ('\\' :: 'u' :: (Text.hexadecimal 4 (0xDC00 + n % 0x400) ++ cs)), position⟩
      = .ok (.char (Char.ofNat (0x10000 + n)), 10) := by
  have hhigh : 0xD800 + n / 0x400 ≤ 0xFFFF := by omega
  have hlow : 0xDC00 + n % 0x400 ≤ 0xFFFF := by omega
  unfold unicodeEscape
  simp only [drop_hexadecimal hhigh, hexQuad?_hexadecimal hhigh]
  rw [if_neg (by simp)]
  rw [if_pos ⟨by omega, by omega, by rw [drop_hexadecimal hlow]; simpa using hne⟩,
    hexQuad?_hexadecimal hlow]
  simp only
  rw [if_pos ⟨by omega, by omega⟩, show 0x10000 + (0xD800 + n / 0x400 - 0xD800) * 0x400 +
    (0xDC00 + n % 0x400 - 0xDC00) = 0x10000 + n by omega]

/-! ## Steps of the reader -/

/-- A character that needs no escape is read as itself. -/
theorem stringBody_plain {c : Char} (hquote : c ≠ '"') (hslash : c ≠ '\\') (hc : 0x20 ≤ c.toNat)
    (opening fuel : Nat) (text : List CodePoint) (cs : List Char) (position : Nat) :
    stringBody opening (fuel + 1) text ⟨c :: cs, position⟩
      = stringBody opening fuel (.char c :: text) ⟨cs, position + 1⟩ := by
  rw [stringBody]
  split
  · rename_i h
    cases h
  · rename_i h
    exact absurd (List.cons.inj h).1 hquote
  · rename_i h
    exact absurd (List.cons.inj h).1 hslash
  · rename_i h
    exact absurd (List.cons.inj h).1 hslash
  · rename_i h
    exact absurd (List.cons.inj h).1 hslash
  · rename_i h
    obtain ⟨rfl, rfl⟩ := List.cons.inj h
    exact if_neg (by omega)

/-- A short escape is read as its character. -/
theorem stringBody_simple {e c : Char} (he : simpleEscape? e = some c) (opening fuel : Nat)
    (text : List CodePoint) (cs : List Char) (position : Nat) :
    stringBody opening (fuel + 1) text ⟨'\\' :: e :: cs, position⟩
      = stringBody opening fuel (.char c :: text) ⟨cs, position + 2⟩ := by
  rw [stringBody]
  split
  · rename_i h
    cases h
  · rename_i h
    exact absurd (List.cons.inj h).1 (by decide)
  · rename_i h
    cases h
  · rename_i h
    rw [(List.cons.inj (List.cons.inj h).2).1] at he
    cases he
  · rename_i h
    rw [← (List.cons.inj (List.cons.inj h).2).1, he]
    rfl
  · rename_i hplain h
    obtain ⟨hslash, hrest⟩ := List.cons.inj h
    exact absurd hrest.symm (hplain e cs hslash.symm)

/-- A numbered escape is read as its code point, and reading goes on behind it. -/
theorem stringBody_unicode {cs : List Char} {position n : Nat} {p : CodePoint}
    (h : unicodeEscape ⟨cs, position + 2⟩ = .ok (p, n)) (opening fuel : Nat)
    (text : List CodePoint) :
    stringBody opening (fuel + 1) text ⟨'\\' :: 'u' :: cs, position⟩
      = stringBody opening fuel (p :: text) ⟨cs.drop n, position + (2 + n)⟩ := by
  have hskip : Cursor.skip ⟨'\\' :: 'u' :: cs, position⟩ (2 + n)
      = ⟨cs.drop n, position + (2 + n)⟩ := by
    rw [Cursor.skip, Nat.add_comm 2 n]
    rfl
  rw [stringBody]
  simp only [Cursor.skip, List.drop_succ_cons, List.drop_zero] at hskip ⊢
  rw [h]
  simp only [hskip]

/-- The escape of one unit is read as this unit, unless it is a first half and the second follows. -/
theorem stringBody_unit {p : CodePoint} (hp : p.number ≤ 0xFFFF) {cs : List Char} (hne : cs ≠ [])
    (hlow : p.isHigh = true → NoLowEscape cs) (opening fuel : Nat) (text : List CodePoint)
    (position : Nat) :
    stringBody opening (fuel + 1) text ⟨unitEscape p.number ++ cs, position⟩
      = stringBody opening fuel (p :: text) ⟨cs, position + 6⟩ := by
  have hread := unicodeEscape_unit hp hne (fun h => hlow (CodePoint.isHigh_iff_number.mpr h))
    (position + 2)
  rw [CodePoint.ofUnit_number hp] at hread
  rw [unitEscape, List.cons_append, List.cons_append, stringBody_unicode hread opening fuel text,
    drop_hexadecimal hp]

/-- The escapes of two halves are read as one character. -/
theorem stringBody_pair {n : Nat} (hn : n < 0x100000) {cs : List Char} (hne : cs ≠ [])
    (opening fuel : Nat) (text : List CodePoint) (position : Nat) :
    stringBody opening (fuel + 1) text
        ⟨unitEscape (0xD800 + n / 0x400) ++ unitEscape (0xDC00 + n % 0x400) ++ cs, position⟩
      = stringBody opening fuel (.char (Char.ofNat (0x10000 + n)) :: text) ⟨cs, position + 12⟩ := by
  have hread := unicodeEscape_pair hn hne (position + 2)
  have hhigh : 0xD800 + n / 0x400 ≤ 0xFFFF := by omega
  have hlow : 0xDC00 + n % 0x400 ≤ 0xFFFF := by omega
  rw [unitEscape, unitEscape, List.append_assoc, List.cons_append, List.cons_append,
    List.cons_append, List.cons_append, stringBody_unicode hread opening fuel text,
    drop_hexadecimal_pair hhigh hlow]

/-- The reader takes the escape of a code point as that code point. -/
theorem stringBody_escapePoint (p : CodePoint) {cs : List Char} (hne : cs ≠ [])
    (hlow : p.isHigh = true → NoLowEscape cs) (opening fuel : Nat) (text : List CodePoint)
    (position : Nat) :
    ∃ position', stringBody opening (fuel + 1) text ⟨escapePoint p ++ cs, position⟩
      = stringBody opening fuel (p :: text) ⟨cs, position'⟩ := by
  cases p with
  | surrogate offset =>
    have := offset.isLt
    have hp : (CodePoint.surrogate offset).number ≤ 0xFFFF := by
      show 0xD800 + offset.val ≤ 0xFFFF
      omega
    exact ⟨_, stringBody_unit hp hne hlow opening fuel text position⟩
  | char c =>
    have hof : Char.ofNat c.toNat = c := Char.ofNat_toNat c
    have hv : c.toNat < 0xD800 ∨ 0xDFFF < c.toNat ∧ c.toNat < 0x110000 := c.valid
    -- The cases are those of the writer, in its order.
    rw [escapePoint, escapeChar]
    by_cases hself : c = '"' ∨ c = '\\'
    · rw [if_pos hself]
      refine ⟨_, stringBody_simple ?_ opening fuel text cs position⟩
      rcases hself with rfl | rfl <;> rfl
    rw [if_neg hself]
    obtain ⟨hquote, hslash⟩ := not_or.mp hself
    by_cases hn : c = '\n'
    · rw [if_pos hn, hn]
      exact ⟨_, stringBody_simple rfl opening fuel text cs position⟩
    rw [if_neg hn]
    by_cases hr : c = '\r'
    · rw [if_pos hr, hr]
      exact ⟨_, stringBody_simple rfl opening fuel text cs position⟩
    rw [if_neg hr]
    by_cases ht : c = '\t'
    · rw [if_pos ht, ht]
      exact ⟨_, stringBody_simple rfl opening fuel text cs position⟩
    rw [if_neg ht]
    by_cases hf : c.toNat = 0x0C
    · have hc : simpleEscape? 'f' = some c := by rw [← hof, hf, simpleEscape?]
      rw [if_pos hf]
      exact ⟨_, stringBody_simple hc opening fuel text cs position⟩
    rw [if_neg hf]
    by_cases hb : c.toNat = 0x08
    · have hc : simpleEscape? 'b' = some c := by rw [← hof, hb, simpleEscape?]
      rw [if_pos hb]
      exact ⟨_, stringBody_simple hc opening fuel text cs position⟩
    rw [if_neg hb]
    by_cases hplain : 0x20 ≤ c.toNat ∧ c.toNat ≤ 0x7E
    · rw [if_pos hplain]
      exact ⟨_, stringBody_plain hquote hslash hplain.1 opening fuel text cs position⟩
    rw [if_neg hplain]
    by_cases hshort : c.toNat ≤ 0xFFFF
    · rw [if_pos hshort]
      exact ⟨_, stringBody_unit (p := .char c) hshort hne hlow opening fuel text position⟩
    · rw [if_neg hshort]
      -- Beyond the basic plane the two halves are written, and read as one.
      have hpair := stringBody_pair (n := c.toNat - 0x10000) (by omega) hne opening fuel text
        position
      rw [Nat.add_sub_cancel' (by omega), hof] at hpair
      exact ⟨_, hpair⟩

/-- Only the escape of a second half is read as one. -/
theorem noLowEscape_escapePoint {p : CodePoint} (h : p.isLow = false) (cs : List Char) :
    NoLowEscape (escapePoint p ++ cs) := by
  have hunit (n : Nat) (hn : n ≤ 0xFFFF) (hrange : ¬(0xDC00 ≤ n ∧ n ≤ 0xDFFF)) (rest : List Char) :
      NoLowEscape (unitEscape n ++ rest) := by
    intro more heq
    have hmore : Text.hexadecimal 4 n ++ rest = more := (List.cons.inj (List.cons.inj heq).2).2
    exact ⟨n, hmore ▸ hexQuad?_hexadecimal hn rest, hrange⟩
  have hletter (e : Char) (he : e ≠ 'u') (rest : List Char) :
      NoLowEscape ('\\' :: e :: rest) := by
    intro more heq
    exact absurd (List.cons.inj (List.cons.inj heq).2).1 he
  -- What is not a second half does not have the number of one.
  have hp : ¬(0xDC00 ≤ p.number ∧ p.number ≤ 0xDFFF) := by
    rw [← CodePoint.isLow_iff_number, h]
    exact Bool.false_ne_true
  cases p with
  | surrogate offset =>
    have := offset.isLt
    exact hunit _ (show 0xD800 + offset.val ≤ 0xFFFF by omega) hp cs
  | char c =>
    have hv : c.toNat < 0xD800 ∨ 0xDFFF < c.toNat ∧ c.toNat < 0x110000 := c.valid
    show NoLowEscape (escapeChar c ++ cs)
    unfold escapeChar
    by_cases hself : c = '"' ∨ c = '\\'
    · rw [if_pos hself]
      exact hletter c (by rcases hself with rfl | rfl <;> decide) cs
    rw [if_neg hself]
    obtain ⟨_, hslash⟩ := not_or.mp hself
    split
    · exact hletter _ (by decide) cs
    split
    · exact hletter _ (by decide) cs
    split
    · exact hletter _ (by decide) cs
    split
    · exact hletter _ (by decide) cs
    split
    · exact hletter _ (by decide) cs
    split
    · exact noLowEscape_of_head hslash cs
    split
    · rename_i hshort
      exact hunit _ hshort hp cs
    · rw [List.append_assoc]
      exact hunit _ (by omega) (by omega) _

/-! ## Texts -/

/-- Every code point is written by something. -/
theorem escapePoint_ne_nil (p : CodePoint) : escapePoint p ≠ [] := by
  cases p with
  | surrogate offset => exact List.cons_ne_nil _ _
  | char c =>
    rw [escapePoint, escapeChar]
    repeat' split
    all_goals exact List.cons_ne_nil _ _

/-- A written text is at least as long as the text. -/
theorem length_le_length_flatMap_escapePoint (points : List CodePoint) :
    points.length ≤ (points.flatMap escapePoint).length := by
  induction points with
  | nil => exact Nat.le_refl _
  | cons p ps ih =>
    have hp : 0 < (escapePoint p).length := List.length_pos_iff.mpr (escapePoint_ne_nil p)
    rw [List.flatMap_cons, List.length_append, List.length_cons]
    omega

/-- A written text with its closing quote is read back, with one unit of fuel for each code point. -/
theorem stringBody_escaped {points : List CodePoint} (h : points.IsChain CodePoint.Apart)
    (opening : Nat) {fuel : Nat} (hfuel : points.length < fuel) (text : List CodePoint)
    (cs : List Char) (position : Nat) :
    ∃ position', stringBody opening fuel text ⟨points.flatMap escapePoint ++ '"' :: cs, position⟩
      = .ok (⟨text.reverse ++ points⟩, ⟨cs, position'⟩) := by
  induction points generalizing fuel text position with
  | nil =>
    obtain ⟨fuel, rfl⟩ : ∃ n, fuel = n + 1 := ⟨fuel - 1, by simp at hfuel; omega⟩
    refine ⟨position + 1, ?_⟩
    rw [List.flatMap_nil, List.nil_append, stringBody, List.append_nil]
    rfl
  | cons p ps ih =>
    obtain ⟨fuel, rfl⟩ : ∃ n, fuel = n + 1 := ⟨fuel - 1, by simp at hfuel; omega⟩
    obtain ⟨hhead, hrest⟩ := List.isChain_cons.mp h
    -- Behind a first half stands the closing quote, or the escape of something else.
    have hlow (hp : p.isHigh = true) : NoLowEscape (ps.flatMap escapePoint ++ '"' :: cs) := by
      cases ps with
      | nil => exact noLowEscape_of_head (by decide) cs
      | cons q qs =>
        have hq : q.isLow = false := by
          by_contra hlow
          exact hhead q rfl ⟨hp, by simpa using hlow⟩
        rw [List.flatMap_cons, List.append_assoc]
        exact noLowEscape_escapePoint hq _
    have hne : ps.flatMap escapePoint ++ '"' :: cs ≠ [] := by simp
    obtain ⟨mid, hstep⟩ := stringBody_escapePoint p hne hlow opening fuel text position
    obtain ⟨last, hbody⟩ := ih hrest (by simp at hfuel; omega) (p :: text) mid
    refine ⟨last, ?_⟩
    rw [List.flatMap_cons, List.append_assoc, hstep, hbody, List.reverse_cons, List.append_assoc]
    rfl

/-- A joined text reads back from the string that is written for it. -/
theorem string_encodeString {s : RawText} (h : s.Joined) (cs : List Char) (position : Nat) :
    ∃ position', string ⟨(encodeString s).toList ++ cs, position⟩ = .ok (s, ⟨cs, position'⟩) := by
  have htext : (encodeString s).toList ++ cs
      = '"' :: (s.points.flatMap escapePoint ++ '"' :: cs) := by
    simp [encodeString]
  have hlength := length_le_length_flatMap_escapePoint s.points
  rw [htext]
  have hfuel : s.points.length
      < ('"' :: (s.points.flatMap escapePoint ++ '"' :: cs)).length + 1 := by
    simp only [List.length_cons, List.length_append]
    omega
  obtain ⟨last, hbody⟩ := stringBody_escaped h position hfuel [] cs (position + 1)
  exact ⟨last, hbody⟩

/-! ## What was read is joined -/

/-- A text does not go on with an escape that is read as a second half. -/
def NoLowNext (cs : List Char) : Prop :=
  ∀ more low, cs = '\\' :: 'u' :: more → more.drop 4 ≠ [] → hexQuad? more = some low →
    ¬(0xDC00 ≤ low ∧ low ≤ 0xDFFF)

/-- A unit that is a half has its own number. -/
theorem number_ofUnit {n : Nat} (h : 0xD800 ≤ n ∧ n ≤ 0xDFFF) : (CodePoint.ofUnit n).number = n := by
  rw [CodePoint.ofUnit, dif_pos ⟨h.1, by omega⟩]
  show 0xD800 + (n - 0xD800) = n
  omega

/-- A unit that is no half is a character. -/
theorem ofUnit_of_not_surrogate {n : Nat} (h : ¬(0xD800 ≤ n ∧ n ≤ 0xDFFF)) :
    CodePoint.ofUnit n = .char (Char.ofNat n) := by
  rw [CodePoint.ofUnit, dif_neg (by omega)]

/-- A unit that is read as half of a character has that number. -/
theorem number_of_half {n : Nat}
    (h : (CodePoint.ofUnit n).isHigh = true ∨ (CodePoint.ofUnit n).isLow = true) :
    (CodePoint.ofUnit n).number = n := by
  by_cases hn : 0xD800 ≤ n ∧ n ≤ 0xDFFF
  · exact number_ofUnit hn
  · rw [ofUnit_of_not_surrogate hn] at h
    rcases h with h | h <;> cases h

/-- An escape is read as a half only when its own digits say so, and as a first half only when no
second half follows. -/
theorem unicodeEscape_halves {cs : List Char} {position n : Nat} {p : CodePoint}
    (h : unicodeEscape ⟨cs, position⟩ = .ok (p, n)) :
    (p.isLow = true → cs.drop 4 ≠ [] ∧ hexQuad? cs = some p.number) ∧
      (p.isHigh = true → NoLowNext (cs.drop n)) := by
  have hchar (c : Char) : ((CodePoint.char c).isLow = true → cs.drop 4 ≠ [] ∧
      hexQuad? cs = some (CodePoint.char c).number) ∧
      ((CodePoint.char c).isHigh = true → NoLowNext (cs.drop n)) :=
    ⟨fun h => (by cases h), fun h => (by cases h)⟩
  unfold unicodeEscape at h
  simp only at h
  split at h
  · cases h
  rename_i hne
  have hne : cs.drop 4 ≠ [] := by simpa using hne
  split at h
  · cases h
  rename_i unit hunit
  -- A second half has the digits of its own number.
  have hlow (hp : (CodePoint.ofUnit unit).isLow = true) :
      cs.drop 4 ≠ [] ∧ hexQuad? cs = some (CodePoint.ofUnit unit).number := by
    rw [number_of_half (.inr hp)]
    exact ⟨hne, hunit⟩
  split at h
  · rename_i more hmore
    split at h
    · rename_i hhigh
      split at h
      · cases h
      rename_i low hquad
      split at h
      · cases h
        exact hchar _
      · rename_i hrange
        cases h
        refine ⟨hlow, ?_⟩
        intro _
        rintro more' low' hmore' - hquad'
        rw [hmore] at hmore'
        obtain rfl : more = more' := (List.cons.inj (List.cons.inj hmore').2).2
        rw [hquad] at hquad'
        obtain rfl := Option.some.inj hquad'
        exact hrange
    · rename_i hhigh
      cases h
      refine ⟨hlow, ?_⟩
      intro hp
      rintro more' low' hmore' hdrop -
      rw [hmore] at hmore'
      obtain rfl : more = more' := (List.cons.inj (List.cons.inj hmore').2).2
      have hn := CodePoint.isHigh_iff_number.mp hp
      rw [number_of_half (.inl hp)] at hn
      exact absurd ⟨hn.1, hn.2, by simpa using hdrop⟩ hhigh
  · rename_i hmore
    cases h
    refine ⟨hlow, ?_⟩
    intro _
    rintro more' low' hmore' - -
    exact absurd hmore' (hmore more')

/-- What the reader has read so far stays joined. The code point that was read last is the one to
watch: after a first half no second half may follow. -/
theorem joined_of_stringBody {opening fuel : Nat} {text : List CodePoint} {c c' : Cursor}
    {s : RawText} (h : stringBody opening fuel text c = .ok (s, c'))
    (htext : text.reverse.IsChain CodePoint.Apart)
    (hlast : ∀ p ∈ text.head?, p.isHigh = true → NoLowNext c.rest) : s.Joined := by
  induction fuel generalizing text c with
  | zero =>
    rw [stringBody] at h
    cases h
  | succ fuel ih =>
    -- One more code point, which is no second half behind a first one.
    have hnext {p : CodePoint} {d : Cursor} (h : stringBody opening fuel (p :: text) d = .ok (s, c'))
        (hlow : p.isLow = true → ∀ q ∈ text.head?, q.isHigh = false)
        (hhigh : p.isHigh = true → NoLowNext d.rest) : s.Joined := by
      refine ih h ?_ ?_
      · rw [List.isChain_reverse] at htext ⊢
        refine List.isChain_cons.mpr ⟨?_, htext⟩
        rintro q hq ⟨hqh, hpl⟩
        rw [hlow hpl q hq] at hqh
        cases hqh
      · rintro q hq
        obtain rfl := Option.some.inj hq
        exact hhigh
    rw [stringBody] at h
    split at h
    · cases h
    · cases h
      exact htext
    · cases h
    · rename_i more hrest
      split at h
      · cases h
      rename_i p n hescape
      -- Of all that is read only an escape can be a half.
      have hcursor : c.skip 2 = ⟨more, c.position + 2⟩ := by
        rw [Cursor.skip, hrest]
        rfl
      rw [hcursor] at hescape
      obtain ⟨hlow, hhigh⟩ := unicodeEscape_halves hescape
      refine hnext h ?_ ?_
      · intro hp q hq
        by_contra hqh
        obtain ⟨hdrop, hquad⟩ := hlow hp
        exact hlast q hq (by simpa using hqh) more p.number hrest hdrop hquad
          (CodePoint.isLow_iff_number.mp hp)
      · intro hp
        have hdrop : (c.skip (2 + n)).rest = more.drop n := by
          show c.rest.drop (2 + n) = _
          rw [hrest, ← List.drop_drop]
          rfl
        rw [hdrop]
        exact hhigh hp
    · split at h
      · cases h
      · exact hnext h (fun hp => (by cases hp)) (fun hp => (by cases hp))
    · split at h
      · cases h
      · exact hnext h (fun hp => (by cases hp)) (fun hp => (by cases hp))

/-- **A text that was read is joined.** -/
theorem joined_of_string {c c' : Cursor} {s : RawText} (h : string c = .ok (s, c')) : s.Joined :=
  joined_of_stringBody h .nil (by simp)

end Json

end CommandShell

import CommandShell.Proofs.Json.ReadBack

/-! # Texts that are written alike

A character beyond U+FFFF is written as the escapes of its two surrogates. So a text in which the two
stand apart is written like the text in which they are joined (`encodeString_join`), and it is the joined
text that reads back. -/

namespace CommandShell

namespace CodePoint

/-- The character whose halves two surrogates are. -/
def combined (p q : CodePoint) : CodePoint :=
  .char (Char.ofNat (0x10000 + (p.number - 0xD800) * 0x400 + (q.number - 0xDC00)))

/-- Code points with the halves of a character joined to the character. -/
def join : List CodePoint → List CodePoint
  | [] => []
  | [p] => [p]
  | p :: q :: ps =>
    if p.isHigh = true ∧ q.isLow = true then combined p q :: join ps else p :: join (q :: ps)

/-- Joining starts with what stood first, or with a character. -/
theorem isLow_head_join {p q : CodePoint} {ps : List CodePoint} (h : q ∈ (join (p :: ps)).head?)
    (hlow : q.isLow = true) : q = p := by
  cases ps with
  | nil =>
    rw [join] at h
    cases h
    rfl
  | cons r ps =>
    rw [join] at h
    split at h
    · cases h
      exact nomatch hlow
    · cases h
      rfl

/-- **What was joined has no halves of a character left** beside each other. -/
theorem isChain_join (ps : List CodePoint) : (join ps).IsChain Apart := by
  induction ps using join.induct with
  | case1 => exact .nil
  | case2 p => exact List.isChain_singleton p
  | case3 p q ps h ih =>
    rw [join, if_pos h]
    refine List.IsChain.cons ih fun r _ hapart => ?_
    exact nomatch hapart.1
  | case4 p q ps h ih =>
    rw [join, if_neg h]
    refine List.IsChain.cons ih fun r hr hapart => h ⟨hapart.1, ?_⟩
    rw [← isLow_head_join hr hapart.2]
    exact hapart.2

end CodePoint

namespace Json

open CodePoint

/-- A character beyond U+FFFF is written as two units. -/
theorem escapePoint_beyond {n : Nat} (hn : n < 0x100000) :
    escapePoint (.char (Char.ofNat (0x10000 + n)))
      = unitEscape (0xD800 + n / 0x400) ++ unitEscape (0xDC00 + n % 0x400) := by
  have hvalid : (0x10000 + n).isValidChar := .inr ⟨by omega, by omega⟩
  have hnat : (Char.ofNat (0x10000 + n)).toNat = 0x10000 + n := by
    rw [Char.ofNat, dif_pos hvalid]
    rfl
  -- None of the characters with an escape of their own has so great a number.
  have hother {c : Char} (hc : c.toNat < 0x10000) : Char.ofNat (0x10000 + n) ≠ c := by
    intro h
    rw [h] at hnat
    omega
  rw [escapePoint, escapeChar, if_neg (not_or.mpr ⟨hother (by decide), hother (by decide)⟩),
    if_neg (hother (by decide)), if_neg (hother (by decide)), if_neg (hother (by decide)), hnat,
    if_neg (by omega), if_neg (by omega), if_neg (by omega), if_neg (by omega),
    Nat.add_sub_cancel_left]

/-- A first half is written as the escape of its number. -/
theorem escapePoint_of_isHigh {p : CodePoint} (h : p.isHigh = true) :
    escapePoint p = unitEscape p.number := by
  cases p with
  | char c => exact nomatch h
  | surrogate offset => rfl

/-- A second half is written as the escape of its number. -/
theorem escapePoint_of_isLow {p : CodePoint} (h : p.isLow = true) :
    escapePoint p = unitEscape p.number := by
  cases p with
  | char c => exact nomatch h
  | surrogate offset => rfl

/-- A character is written as its two halves are. -/
theorem escapePoint_combined {p q : CodePoint} (hp : p.isHigh = true) (hq : q.isLow = true) :
    escapePoint (combined p q) = escapePoint p ++ escapePoint q := by
  obtain ⟨hp₁, hp₂⟩ := isHigh_iff_number.mp hp
  obtain ⟨hq₁, hq₂⟩ := isLow_iff_number.mp hq
  obtain ⟨n, hn⟩ : ∃ n, n = (p.number - 0xD800) * 0x400 + (q.number - 0xDC00) := ⟨_, rfl⟩
  have hfirst : 0xD800 + n / 0x400 = p.number := by omega
  have hsecond : 0xDC00 + n % 0x400 = q.number := by omega
  rw [combined, Nat.add_assoc, ← hn, escapePoint_beyond (by omega), hfirst, hsecond,
    escapePoint_of_isHigh hp, escapePoint_of_isLow hq]

/-- Joining halves does not change how a text is written. -/
theorem flatMap_escapePoint_join (ps : List CodePoint) :
    (join ps).flatMap escapePoint = ps.flatMap escapePoint := by
  induction ps using join.induct with
  | case1 => rfl
  | case2 p => rfl
  | case3 p q ps h ih =>
    rw [join, if_pos h, List.flatMap_cons, List.flatMap_cons, List.flatMap_cons, ih,
      escapePoint_combined h.1 h.2, List.append_assoc]
  | case4 p q ps h ih => rw [join, if_neg h, List.flatMap_cons, List.flatMap_cons, ih]

end Json

namespace RawText

/-- A text with the halves of a character joined to the character. -/
def join (s : RawText) : RawText := ⟨CodePoint.join s.points⟩

/-- After joining, nothing is left to join. -/
theorem joined_join (s : RawText) : s.join.Joined := CodePoint.isChain_join s.points

end RawText

/-- **A text is written like the joined one.** -/
theorem Json.encodeString_join (s : RawText) : encodeString s.join = encodeString s := by
  rw [encodeString, encodeString, RawText.join, flatMap_escapePoint_join]

end CommandShell

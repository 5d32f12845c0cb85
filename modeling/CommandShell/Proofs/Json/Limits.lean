import CommandShell.Proofs.Json.Numbers

/-! # When the reader gives up

A text can be wrong in two ways. It may not be JSON, and then the reader says what is wrong at which place.
Or the reader gives up on it (`Fault.GivesUp`), though it may be JSON: too many arrays and objects are open
at once, or a whole number has too many digits. Either way the text itself accounts for it
(`accounted_read`, by induction over the reader): the reader gives up only on a text that has more openings
than may be nested, or more digits in a row than a number may have (`exceeds_of_decodeChars`). Texts within
both limits are read or found malformed (`not_givesUp_of_moderate`). -/

namespace CommandShell

namespace Json

/-- The reader **gives up** on a text without saying what is wrong with it. -/
def Fault.GivesUp : Fault → Prop
  | .malformed _ _ => False
  | .oversized _ => True
  | .nested => True

/-- Whether a character opens an array or an object. -/
def isOpening (c : Char) : Bool := c == '[' || c == '\x7b'

/-- How many arrays and objects a text may open. -/
def openings (cs : List Char) : Nat := cs.countP isOpening

/-- A text **exceeds** a limit of the reader, which may open `depth` more arrays and objects. -/
def Exceeds (depth : Nat) (cs : List Char) : Fault → Prop
  | .malformed _ _ => True
  | .oversized n => maxDigits < n ∧ ∃ ds, ds <:+: cs ∧ ds.length = n ∧ ∀ d ∈ ds, d.isDigit = true
  | .nested => depth < openings cs

/-- A text is **moderate** if it stays within the limits of the reader: it has at most so many openings, and
at most so many digits in a row. -/
def Moderate (cs : List Char) : Prop :=
  openings cs ≤ maxDepth ∧
    ∀ ds, ds <:+: cs → (∀ d ∈ ds, d.isDigit = true) → ds.length ≤ maxDigits

/-- A text **accounts** for what the reader makes of it: it is read up to a place in it, or the fault is
malformed text, or it exceeds a limit. -/
def Accounted {α : Type} (depth : Nat) (cs : List Char) : Read α → Prop
  | .ok (_, c) => c.rest <:+ cs
  | .error e => Exceeds depth cs e

section

variable {α β : Type} {depth : Nat} {cs cs' : List Char}

/-- What a later part of a text exceeds, the text exceeds. -/
theorem Exceeds.of_suffix {e : Fault} (h : Exceeds depth cs e) (hcs : cs <:+ cs') :
    Exceeds depth cs' e := by
  cases e with
  | malformed m position => trivial
  | oversized n =>
    obtain ⟨hn, ds, hds, hlength, hdigits⟩ := h
    exact ⟨hn, ds, hds.trans hcs.isInfix, hlength, hdigits⟩
  | nested => exact Nat.lt_of_lt_of_le h (hcs.sublist.countP_le)

/-- What a later part of a text accounts for, the text accounts for. -/
theorem Accounted.of_suffix {r : Read α} (h : Accounted depth cs r) (hcs : cs <:+ cs') :
    Accounted depth cs' r := by
  cases r with
  | ok x => exact List.IsSuffix.trans h hcs
  | error e => exact Exceeds.of_suffix h hcs

/-- A text accounts for whatever is made of the value that was read. -/
theorem Accounted.map {r : Read α} (h : Accounted depth cs r) (f : α → β) :
    Accounted depth cs (r.map fun (x, c) => (f x, c)) := by
  cases r with
  | ok x => exact h
  | error e => exact h

/-- Behind an opening, one less may be open. -/
theorem Accounted.opened {r : Read α} (h : Accounted depth cs r) {b : Char} (hb : isOpening b = true) :
    Accounted (depth + 1) (b :: cs) r := by
  cases r with
  | ok x => exact List.IsSuffix.trans h (List.suffix_cons b cs)
  | error e =>
    cases e with
    | malformed m position => trivial
    | oversized n =>
      have hbehind : Exceeds (depth + 1) cs (.oversized n) := h
      exact hbehind.of_suffix (List.suffix_cons b cs)
    | nested =>
      have hcount : openings (b :: cs) = openings cs + 1 := List.countP_cons_of_pos hb
      show depth + 1 < openings (b :: cs)
      rw [hcount]
      exact Nat.succ_lt_succ h

/-- Every text accounts for the fault that it is malformed. -/
theorem accounted_fail (c : Cursor) (m : Mistake) :
    Accounted depth cs (c.fail m : Read α) := trivial

end

/-! ## Places further on -/

/-- Skipping characters leads to a later part. -/
theorem suffix_skip (c : Cursor) (n : Nat) : (c.skip n).rest <:+ c.rest := List.drop_suffix n c.rest

/-- Skipping gaps leads to a later part. -/
theorem suffix_skipGaps (c : Cursor) : c.skipGaps.rest <:+ c.rest := suffix_skip c _

/-! ## Strings and numbers -/

section

variable {depth : Nat}

/-- The only fault of an escape is that it is malformed. -/
theorem malformed_of_unicodeEscape {c : Cursor} {e : Fault} (h : unicodeEscape c = .error e) :
    ∃ m position, e = .malformed m position := by
  unfold unicodeEscape at h
  split at h
  · cases h
    exact ⟨_, _, rfl⟩
  split at h
  · cases h
    exact ⟨_, _, rfl⟩
  split at h
  · split at h
    · split at h
      · cases h
        exact ⟨_, _, rfl⟩
      · split at h
        · cases h
        · cases h
    · cases h
  · cases h

/-- A text accounts for the string that is read from within it. -/
theorem accounted_stringBody (opening fuel : Nat) (text : List CodePoint) (c : Cursor) :
    Accounted depth c.rest (stringBody opening fuel text c) := by
  induction fuel generalizing text c with
  | zero => exact trivial
  | succ fuel ih =>
    have hmore (p : CodePoint) (n : Nat) :
        Accounted depth c.rest (stringBody opening fuel (p :: text) (c.skip n)) :=
      (ih _ _).of_suffix (suffix_skip c n)
    rw [stringBody.eq_def]
    simp only
    split
    · exact trivial
    · exact suffix_skip c 1
    · exact trivial
    · cases hescape : unicodeEscape (c.skip 2) with
      | error e =>
        obtain ⟨m, position, rfl⟩ := malformed_of_unicodeEscape hescape
        exact trivial
      | ok r => exact hmore _ _
    · split
      · exact trivial
      · exact hmore _ _
    · split
      · exact trivial
      · exact hmore _ _

/-- A text accounts for the string that it starts with. -/
theorem accounted_string (c : Cursor) : Accounted depth c.rest (string c) :=
  (accounted_stringBody _ _ _ _).of_suffix (suffix_skip c 1)

/-- The digits before the point stand in the text one behind the other. -/
theorem infix_wholePart (cs : List Char) : wholePart cs <:+: cs := by
  unfold wholePart
  split
  · exact List.IsPrefix.isInfix ⟨_, rfl⟩
  · exact (List.takeWhile_prefix _).isInfix

/-- A text accounts for the number that it starts with: its digits are the only ones that may be too many.
-/
theorem accounted_number (c : Cursor) : Accounted depth c.rest (number c) := by
  rw [number_eq]
  simp only
  split
  · exact trivial
  split
  · split
    · rename_i hlong
      exact ⟨hlong, _, (infix_wholePart _).trans (List.drop_suffix _ _).isInfix, rfl,
        fun d hd => isDigit_of_mem_wholePart hd⟩
    · exact suffix_skip c _
  · exact suffix_skip c _

/-- A text accounts for the name or number that it starts with. -/
theorem accounted_scalar (c : Cursor) : Accounted depth c.rest (scalar c) := by
  rw [scalar_eq]
  split
  · exact suffix_skip c _
  · exact accounted_number c

/-! ## Values

One step of the reader for each kind of thing, with what is known of the things within as a hypothesis. -/

variable {fuel : Nat}

/-- A text accounts for a value if what stands behind an opening accounts for items and members. -/
theorem accounted_value_step
    (hitems : ∀ depth c, Accounted depth c.rest (items fuel depth [] c))
    (hmembers : ∀ depth c, Accounted depth c.rest (members fuel depth {} c)) (c : Cursor) :
    Accounted depth c.rest (value (fuel + 1) depth c) := by
  have hinside (b : Char) (cs : List Char) (hrest : c.rest = b :: cs) :
      (c.skip 1).skipGaps.rest <:+ cs := by
    have hskip : (c.skip 1).rest = cs := by rw [Cursor.skip, hrest]; rfl
    exact hskip ▸ suffix_skipGaps (c.skip 1)
  -- Only an opening bracket goes one level deeper, and it is itself part of the text.
  rw [value.eq_def]
  simp only
  split
  · exact (accounted_string c).map _
  · rename_i cs hrest
    have hopening : isOpening '[' = true := rfl
    rw [hrest]
    cases depth with
    | zero => exact List.countP_pos_iff.mpr ⟨'[', List.mem_cons_self, hopening⟩
    | succ depth =>
      refine Accounted.opened ?_ hopening
      refine Accounted.of_suffix ?_ (hinside _ _ hrest)
      dsimp only
      split
      · exact suffix_skip _ 1
      · exact (hitems _ _).map _
  · rename_i cs hrest
    have hopening : isOpening '\x7b' = true := rfl
    rw [hrest]
    cases depth with
    | zero => exact List.countP_pos_iff.mpr ⟨'\x7b', List.mem_cons_self, hopening⟩
    | succ depth =>
      refine Accounted.opened ?_ hopening
      refine Accounted.of_suffix ?_ (hinside _ _ hrest)
      dsimp only
      split
      · exact suffix_skip _ 1
      · exact (hmembers _ _).map _
  · exact accounted_scalar c

/-- A text accounts for items if it does so for the first of them and what is behind that for the others.
-/
theorem accounted_items_step (hvalue : ∀ c, Accounted depth c.rest (value fuel depth c))
    (hitems : ∀ read c, Accounted depth c.rest (items fuel depth read c)) (read : List Json)
    (c : Cursor) : Accounted depth c.rest (items (fuel + 1) depth read c) := by
  rw [items.eq_def]
  simp only
  have hfirst := hvalue c
  cases hread : value fuel depth c with
  | error e =>
    rw [hread] at hfirst
    exact hfirst
  | ok r =>
    obtain ⟨j, c₁⟩ := r
    rw [hread] at hfirst
    have hbehind : c₁.skipGaps.rest <:+ c.rest := (suffix_skipGaps c₁).trans hfirst
    dsimp only
    split
    · exact (suffix_skip _ 1).trans hbehind
    · exact (hitems _ _).of_suffix
        ((suffix_skipGaps _).trans ((suffix_skip _ 1).trans hbehind))
    · exact accounted_fail _ _

/-- A text accounts for members if it does so for the first of them and what is behind that for the
others. -/
theorem accounted_members_step (hvalue : ∀ c, Accounted depth c.rest (value fuel depth c))
    (hmembers : ∀ read c, Accounted depth c.rest (members fuel depth read c))
    (read : Table RawText Json) (c : Cursor) :
    Accounted depth c.rest (members (fuel + 1) depth read c) := by
  rw [members.eq_def]
  simp only
  split
  · -- Each part starts in a suffix of what the part before left.
    have hname : Accounted depth c.rest (string c) := accounted_string c
    cases hread : string c with
    | error e =>
      rw [hread] at hname
      exact hname
    | ok r =>
      obtain ⟨name, c₁⟩ := r
      rw [hread] at hname
      have hcolon : c₁.skipGaps.rest <:+ c.rest := (suffix_skipGaps c₁).trans hname
      dsimp only
      split
      · have hstart := (suffix_skipGaps (c₁.skipGaps.skip 1)).trans
          ((suffix_skip c₁.skipGaps 1).trans hcolon)
        have hmember := (hvalue (c₁.skipGaps.skip 1).skipGaps).of_suffix hstart
        cases hvalueread : value fuel depth (c₁.skipGaps.skip 1).skipGaps with
        | error e =>
          rw [hvalueread] at hmember
          exact hmember
        | ok r =>
          obtain ⟨j, c₂⟩ := r
          rw [hvalueread] at hmember
          have hbehind : c₂.skipGaps.rest <:+ c.rest := (suffix_skipGaps c₂).trans hmember
          dsimp only
          split
          · exact (suffix_skip _ 1).trans hbehind
          · exact (hmembers _ _).of_suffix
              ((suffix_skipGaps _).trans ((suffix_skip _ 1).trans hbehind))
          · exact accounted_fail _ _
      · exact accounted_fail _ _
  · exact accounted_fail _ _

/-- **The text accounts for what is read**, of a value, of the items of an array and of the members of an
object. -/
theorem accounted_read (fuel : Nat) :
    (∀ depth c, Accounted depth c.rest (value fuel depth c)) ∧
      (∀ depth read c, Accounted depth c.rest (items fuel depth read c)) ∧
        ∀ depth read c, Accounted depth c.rest (members fuel depth read c) := by
  induction fuel with
  | zero =>
    refine ⟨fun depth c => ?_, fun depth read c => ?_, fun depth read c => ?_⟩
    · rw [value]
      exact accounted_fail _ _
    · rw [items]
      exact accounted_fail _ _
    · rw [members]
      exact accounted_fail _ _
  | succ fuel ih =>
    obtain ⟨hvalue, hitems, hmembers⟩ := ih
    exact ⟨fun _ c => accounted_value_step (fun _ => hitems _ _) (fun _ => hmembers _ _) c,
      fun _ => accounted_items_step (hvalue _) (hitems _),
      fun _ => accounted_members_step (hvalue _) (hmembers _)⟩

end

/-! ## Whole texts -/

/-- **The reader gives up only on a text that exceeds its limits.** -/
theorem exceeds_of_decodeChars {cs : List Char} {e : Fault} (h : decodeChars cs = .error e) :
    Exceeds maxDepth cs e := by
  unfold decodeChars at h
  simp only at h
  split at h
  · cases h
    trivial
  · have hread := ((accounted_read (2 * cs.length + 2)).1 maxDepth (Cursor.skipGaps ⟨cs, 0⟩)).of_suffix
      (suffix_skipGaps ⟨cs, 0⟩)
    split at h
    · rename_i hvalue
      cases h
      rw [hvalue] at hread
      exact hread
    · split at h
      · cases h
      · cases h
        trivial

/-- **A moderate text is read or found malformed.** -/
theorem not_givesUp_of_moderate {cs : List Char} (h : Moderate cs) {e : Fault}
    (he : decodeChars cs = .error e) : ¬e.GivesUp := by
  have hexceeds := exceeds_of_decodeChars he
  cases e with
  | malformed m position => exact id
  | oversized n =>
    obtain ⟨hn, ds, hds, rfl, hdigits⟩ := hexceeds
    exact absurd (h.2 ds hds hdigits) (Nat.not_le.mpr hn)
  | nested => exact absurd h.1 (Nat.not_le.mpr hexceeds)

end Json

end CommandShell

import CommandShell.Json.Decode
import CommandShell.Json.Encode
import Mathlib.Data.List.TakeWhile

/-! # Numbers and names read back

A number ends where a comma or a line break follows it: reading it does not depend on what stands
behind (`scalar_append`). So whole numbers read back from their digits (`scalar_int`), unless they
have too many of them. How a double is written and read is not looked into: whether it reads back
is a property of its text alone (`DoubleReadsBack`). -/

namespace CommandShell.Json

/-- Whether a text may stand behind a written value: it is over, or goes on with a comma or a line
break. -/
def Stops (cs : List Char) : Prop := ∀ c ∈ cs.head?, c = ',' ∨ c = '\n'

/-- The end of the text may stand behind a value. -/
@[simp] theorem stops_nil : Stops [] := by simp [Stops]

/-- A comma may stand behind a value. -/
@[simp] theorem stops_comma (cs : List Char) : Stops (',' :: cs) := by simp [Stops]

/-- A line break may stand behind a value. -/
@[simp] theorem stops_newline (cs : List Char) : Stops ('\n' :: cs) := by simp [Stops]

/-- Where a text stops there is no character of a class without comma and line break. -/
theorem Stops.head_eq_false {cs : List Char} (h : Stops cs) {p : Char → Bool}
    (hcomma : p ',' = false) (hline : p '\n' = false) {c : Char} (hc : c ∈ cs.head?) :
    p c = false := by
  rcases h c hc with rfl | rfl
  · exact hcomma
  · exact hline

/-- Where a text stops, a class without comma and line break takes nothing. -/
theorem Stops.takeWhile_eq_nil {cs : List Char} (h : Stops cs) {p : Char → Bool}
    (hcomma : p ',' = false) (hline : p '\n' = false) : cs.takeWhile p = [] := by
  cases cs with
  | nil => rfl
  | cons c cs =>
    rw [List.takeWhile_cons, h.head_eq_false hcomma hline rfl]
    rfl

/-- A class without comma and line break takes no more when what follows stops. -/
theorem Stops.takeWhile_append {rest : List Char} (h : Stops rest) {p : Char → Bool}
    (hcomma : p ',' = false) (hline : p '\n' = false) (cs : List Char) :
    (cs ++ rest).takeWhile p = cs.takeWhile p := by
  rw [List.takeWhile_append, h.takeWhile_eq_nil hcomma hline, List.append_nil]
  -- All of the text may be taken, and then the rest adds nothing.
  split
  · rename_i hall
    have htaken := List.takeWhile_prefix (l := cs) p
    exact (htaken.eq_of_length hall).symm
  · rfl

/-! ## The parts of a number -/

/-- The digits before the point: a zero stands alone. -/
def wholePart : List Char → List Char
  | '0' :: _ => ['0']
  | cs => cs.takeWhile Char.isDigit

/-- The parts of the longest number that starts a text, as the reader finds them. -/
structure Numeral where
  /-- Whether a minus sign leads. -/
  negative : Bool
  /-- The digits before the point. -/
  whole : List Char
  /-- The digits behind the point. -/
  fraction : List Char
  /-- The exponent, and how many characters it takes. -/
  exponent : Option (Int × Nat)
  /-- How many characters the number takes. -/
  length : Nat

/-- The parts of the longest number that starts a text. -/
def Numeral.scan (cs : List Char) : Numeral :=
  let negative := cs.head? == some '-'
  let signs := if negative then 1 else 0
  let unsigned := cs.drop signs
  let whole := wholePart unsigned
  let afterWhole := unsigned.drop whole.length
  let fraction := fractionPart afterWhole
  let fractionLength := if fraction.isEmpty then 0 else fraction.length + 1
  let exponent := exponentPart (afterWhole.drop fractionLength)
  ⟨negative, whole, fraction, exponent,
    signs + whole.length + fractionLength + (exponent.map Prod.snd).getD 0⟩

/-- The reader goes by the parts of the number. -/
theorem number_eq (c : Cursor) : number c =
    (let n := Numeral.scan c.rest
    if n.whole.isEmpty then c.fail .value
    else if n.fraction.isEmpty && n.exponent.isNone then
      if n.whole.length > maxDigits then .error (.oversized n.whole.length)
      else
        let i : Int := decimalValue n.whole
        .ok (.int (if n.negative then -i else i), c.skip n.length)
    else
      let power := (n.exponent.map Prod.fst).getD 0 - n.fraction.length
      let ds := (n.whole ++ n.fraction).dropWhile (· == '0')
      .ok (.float (floatOf n.negative (decimalValue ds) ds.length power), c.skip n.length)) := rfl

/-- Unless a zero leads, all digits in front belong to the whole part. -/
theorem wholePart_cons_of_ne {c : Char} (hc : c ≠ '0') (cs : List Char) :
    wholePart (c :: cs) = (c :: cs).takeWhile Char.isDigit := by
  unfold wholePart
  split
  · rename_i heq
    exact absurd (List.cons.inj heq).1 hc
  · rfl

/-- A whole part that is not empty starts where the text does. -/
theorem mem_wholePart_head {c : Char} {cs : List Char} (h : wholePart (c :: cs) ≠ []) :
    c ∈ wholePart (c :: cs) := by
  by_cases hc : c = '0'
  · rw [hc]
    exact List.mem_singleton_self _
  rw [wholePart_cons_of_ne hc] at h ⊢
  by_cases hdigit : c.isDigit = true
  · rw [List.takeWhile_cons_of_pos hdigit]
    exact List.mem_cons_self
  · rw [List.takeWhile_cons_of_neg hdigit] at h
    exact absurd rfl h

/-- The whole part does not reach into what stops. -/
theorem wholePart_append {cs : List Char} (hne : wholePart cs ≠ []) {rest : List Char}
    (h : Stops rest) : wholePart (cs ++ rest) = wholePart cs := by
  cases cs with
  | nil => exact absurd rfl hne
  | cons c cs =>
    by_cases hc : c = '0'
    · rw [hc]
      rfl
    · rw [List.cons_append, wholePart_cons_of_ne hc, wholePart_cons_of_ne hc, ← List.cons_append]
      exact h.takeWhile_append rfl rfl _

/-- The whole part is not longer than the text. -/
theorem length_wholePart_le (cs : List Char) : (wholePart cs).length ≤ cs.length := by
  unfold wholePart
  split
  · simp
  · exact (List.takeWhile_prefix _).length_le

/-- The whole part consists of digits. -/
theorem isDigit_of_mem_wholePart {cs : List Char} {c : Char} (h : c ∈ wholePart cs) :
    c.isDigit = true := by
  unfold wholePart at h
  split at h
  · rw [List.mem_singleton.mp h]
    rfl
  · exact List.all_eq_true.mp List.all_takeWhile c h

/-- The fraction does not reach into what stops. -/
theorem fractionPart_append (cs : List Char) {rest : List Char} (h : Stops rest) :
    fractionPart (cs ++ rest) = fractionPart cs := by
  cases cs with
  | nil =>
    cases rest with
    | nil => rfl
    | cons r rest => rcases h r rfl with rfl | rfl <;> rfl
  | cons c cs =>
    rw [List.cons_append]
    unfold fractionPart
    split
    · rename_i heq
      obtain ⟨rfl, rfl⟩ := List.cons.inj heq
      exact h.takeWhile_append rfl rfl cs
    · rename_i hc
      split
      · rename_i heq
        exact absurd (by rw [(List.cons.inj heq).1]) (hc (cs ++ rest))
      · rfl

/-- A fraction is not longer than the text, its point included. -/
theorem length_fractionPart_le (cs : List Char) :
    (if (fractionPart cs).isEmpty then 0 else (fractionPart cs).length + 1) ≤ cs.length := by
  unfold fractionPart
  split
  · rename_i more
    have hle := (List.takeWhile_prefix (l := more) Char.isDigit).length_le
    rw [List.length_cons]
    split <;> omega
  · exact Nat.zero_le _

/-- The sign of an exponent, how many characters it takes, and what follows it. -/
def signPart : List Char → Bool × Nat × List Char
  | '-' :: r => (true, 1, r)
  | '+' :: r => (false, 1, r)
  | r => (false, 0, r)

/-- An exponent is a mark, perhaps a sign, and digits. -/
theorem exponentPart_cons (e : Char) (more : List Char) :
    exponentPart (e :: more) =
      if e = 'e' ∨ e = 'E' then
        let ds := (signPart more).2.2.takeWhile Char.isDigit
        if ds.isEmpty then none
        else
          let n : Int := decimalValue ds
          some (if (signPart more).1 then -n else n, 1 + (signPart more).2.1 + ds.length)
      else none := rfl

/-- The sign is read off the first character, so that what follows the text stays behind it. -/
theorem signPart_cons_append (c : Char) (cs rest : List Char) :
    signPart (c :: cs ++ rest)
      = ((signPart (c :: cs)).1, (signPart (c :: cs)).2.1, (signPart (c :: cs)).2.2 ++ rest) := by
  by_cases hminus : c = '-'
  · rw [hminus]
    rfl
  by_cases hplus : c = '+'
  · rw [hplus]
    rfl
  -- Without a sign everything is left to the digits.
  have hplain (ds : List Char) : signPart (c :: ds) = (false, 0, c :: ds) := by
    unfold signPart
    split
    · rename_i heq
      exact absurd (List.cons.inj heq).1 hminus
    · rename_i heq
      exact absurd (List.cons.inj heq).1 hplus
    · rfl
  rw [List.cons_append, hplain, hplain]
  rfl

/-- There is no sign where a text stops. -/
theorem signPart_of_stops {cs : List Char} (h : Stops cs) : signPart cs = (false, 0, cs) := by
  cases cs with
  | nil => rfl
  | cons c cs => rcases h c rfl with rfl | rfl <;> rfl

/-- The sign and what follows it are the whole text. -/
theorem length_signPart (cs : List Char) :
    (signPart cs).2.1 + (signPart cs).2.2.length = cs.length := by
  unfold signPart
  split
  · rw [List.length_cons, Nat.add_comm]
  · rw [List.length_cons, Nat.add_comm]
  · exact Nat.zero_add _

/-- The exponent does not reach into what stops. -/
theorem exponentPart_append (cs : List Char) {rest : List Char} (h : Stops rest) :
    exponentPart (cs ++ rest) = exponentPart cs := by
  cases cs with
  | nil =>
    cases rest with
    | nil => rfl
    | cons r rest => rcases h r rfl with rfl | rfl <;> rfl
  | cons e more =>
    rw [List.cons_append, exponentPart_cons, exponentPart_cons]
    cases more with
    | nil =>
      rw [List.nil_append, signPart_of_stops h, signPart_of_stops stops_nil]
      simp only [h.takeWhile_eq_nil (p := Char.isDigit) rfl rfl]
      rfl
    | cons c cs =>
      rw [signPart_cons_append]
      simp only [h.takeWhile_append (p := Char.isDigit) rfl rfl]

/-- An exponent is not longer than the text. -/
theorem length_exponentPart_le (cs : List Char) :
    ((exponentPart cs).map Prod.snd).getD 0 ≤ cs.length := by
  cases cs with
  | nil => exact Nat.le_refl _
  | cons e more =>
    have hle := (List.takeWhile_prefix (l := (signPart more).2.2) Char.isDigit).length_le
    have hsign := length_signPart more
    rw [exponentPart_cons]
    split
    · simp only
      split
      · exact Nat.zero_le _
      · show 1 + (signPart more).2.1 + _ ≤ _
        rw [List.length_cons]
        omega
    · exact Nat.zero_le _

/-! ## What stands behind a number -/

namespace Numeral

/-- A number is not longer than the text that it starts. -/
theorem length_scan_le (cs : List Char) : (scan cs).length ≤ cs.length := by
  have hsigns : (if cs.head? == some '-' then 1 else 0) ≤ cs.length := by
    cases cs with
    | nil => exact Nat.le_refl _
    | cons c cs =>
      rw [List.length_cons]
      split <;> omega
  unfold scan
  simp only
  generalize (if cs.head? == some '-' then 1 else 0) = signs at hsigns
  have hwhole := length_wholePart_le (cs.drop signs)
  have hfraction := length_fractionPart_le
    ((cs.drop signs).drop (wholePart (cs.drop signs)).length)
  have hexponent := length_exponentPart_le
    (((cs.drop signs).drop (wholePart (cs.drop signs)).length).drop
      (if (fractionPart ((cs.drop signs).drop (wholePart (cs.drop signs)).length)).isEmpty then 0
      else (fractionPart ((cs.drop signs).drop (wholePart (cs.drop signs)).length)).length + 1))
  simp only [List.length_drop] at hwhole hfraction hexponent
  omega

/-- The parts of a number do not depend on what stands behind it. -/
theorem scan_append {cs : List Char} (hne : (scan cs).whole ≠ []) {rest : List Char}
    (h : Stops rest) : scan (cs ++ rest) = scan cs := by
  have hcs : cs ≠ [] := by
    rintro rfl
    exact hne rfl
  have hhead : (cs ++ rest).head? = cs.head? := by
    cases cs with
    | nil => exact absurd rfl hcs
    | cons c cs => rfl
  have hsigns : (if cs.head? == some '-' then 1 else 0) ≤ cs.length := by
    have := List.length_pos_iff.mpr hcs
    split <;> omega
  unfold scan at hne ⊢
  simp only [hhead] at hne ⊢
  generalize (if cs.head? == some '-' then 1 else 0) = signs at hne hsigns ⊢
  rw [List.drop_append_of_le_length hsigns, wholePart_append hne h,
    List.drop_append_of_le_length (length_wholePart_le _), fractionPart_append _ h,
    List.drop_append_of_le_length (length_fractionPart_le _), exponentPart_append _ h]

end Numeral

/-- A number that was read is read the same with something else behind it. -/
theorem number_append {cs r : List Char} {position position' : Nat} {j : Json}
    (hread : number ⟨cs, position⟩ = .ok (j, ⟨r, position'⟩)) {rest : List Char} (h : Stops rest)
    (start : Nat) : ∃ last, number ⟨cs ++ rest, start⟩ = .ok (j, ⟨r ++ rest, last⟩) := by
  have hcs := number_eq ⟨cs, position⟩
  rw [hread] at hcs
  simp only at hcs
  split at hcs
  · cases hcs
  rename_i hwhole
  -- The scanner stops at the same place, whatever is behind it.
  have hne : (Numeral.scan cs).whole ≠ [] := by simpa using hwhole
  have hskip : Cursor.skip ⟨cs ++ rest, start⟩ (Numeral.scan cs).length
      = ⟨cs.drop (Numeral.scan cs).length ++ rest, start + (Numeral.scan cs).length⟩ := by
    rw [Cursor.skip, List.drop_append_of_le_length (Numeral.length_scan_le cs)]
  rw [number_eq]
  simp only [Numeral.scan_append hne h, hskip]
  rw [if_neg hwhole]
  split at hcs
  · rename_i hint
    rw [if_pos hint]
    split at hcs
    · cases hcs
    · rename_i hdigits
      cases hcs
      exact ⟨_, if_neg hdigits⟩
  · rename_i hint
    rw [if_neg hint]
    cases hcs
    exact ⟨_, rfl⟩

/-! ## Names -/

/-- A name without comma and line break does not reach into what stops. -/
theorem isPrefixOf_append {name : List Char} (hname : ∀ c ∈ name, c ≠ ',' ∧ c ≠ '\n')
    {rest : List Char} (h : Stops rest) (cs : List Char) :
    name.isPrefixOf (cs ++ rest) = name.isPrefixOf cs := by
  induction name generalizing cs with
  | nil => rw [List.isPrefixOf_nil_left, List.isPrefixOf_nil_left]
  | cons a name ih =>
    have ha := hname a List.mem_cons_self
    cases cs with
    | nil =>
      cases rest with
      | nil => rfl
      | cons r rest =>
        have har : (a == r) = false := by
          rcases h r rfl with rfl | rfl
          · exact beq_false_of_ne ha.1
          · exact beq_false_of_ne ha.2
        show (a == r && name.isPrefixOf rest) = false
        rw [har, Bool.false_and]
    | cons c cs =>
      show (a == c && name.isPrefixOf (cs ++ rest)) = (a == c && name.isPrefixOf cs)
      rw [ih fun c hc => hname c (List.mem_cons_of_mem _ hc)]

/-- None of the names has a comma or a line break. -/
theorem ne_stop_of_mem_names :
    ∀ entry ∈ names.map Prod.fst, ∀ c ∈ entry, c ≠ ',' ∧ c ≠ '\n' := by
  have hall : ((names.map Prod.fst).all fun entry => entry.all fun c => c != ',' && c != '\n')
      = true := rfl
  intro entry hentry c hc
  have hchar := List.all_eq_true.mp (List.all_eq_true.mp hall entry hentry) c hc
  obtain ⟨hcomma, hnewline⟩ := Bool.and_eq_true_iff.mp hchar
  exact ⟨bne_iff_ne.mp hcomma, bne_iff_ne.mp hnewline⟩

/-- The first of the names that starts a text, with its value. -/
def named? (cs : List Char) : Option (List Char × Json) :=
  names.find? fun entry => entry.1.isPrefixOf cs

/-- A scalar is the name that starts the text, and else a number. -/
theorem scalar_eq (c : Cursor) : scalar c = match named? c.rest with
    | some (name, j) => .ok (j, c.skip name.length)
    | none => number c := rfl

/-- The name that is found is how the text starts. -/
theorem prefix_of_named? {cs name : List Char} {j : Json} (h : named? cs = some (name, j)) :
    name <+: cs := by
  have htest := List.find?_some h
  exact List.isPrefixOf_iff_prefix.mp htest

/-- What stops brings no name that was not there. -/
theorem named?_append (cs : List Char) {rest : List Char} (h : Stops rest) :
    named? (cs ++ rest) = named? cs := by
  have hsame : ∀ entry ∈ names, entry.1.isPrefixOf (cs ++ rest) = entry.1.isPrefixOf cs := by
    intro entry hentry
    exact isPrefixOf_append (ne_stop_of_mem_names _ (List.mem_map_of_mem hentry)) h cs
  unfold named?
  -- The names are tried one after the other, each with the same answer.
  generalize names = entries at hsame ⊢
  induction entries with
  | nil => rfl
  | cons entry entries ih =>
    rw [List.find?_cons, List.find?_cons, hsame entry List.mem_cons_self,
      ih fun e he => hsame e (List.mem_cons_of_mem _ he)]

/-- **A name or a number that was read is read the same with something else behind it.** -/
theorem scalar_append {cs r : List Char} {position position' : Nat} {j : Json}
    (hread : scalar ⟨cs, position⟩ = .ok (j, ⟨r, position'⟩)) {rest : List Char} (h : Stops rest)
    (start : Nat) : ∃ last, scalar ⟨cs ++ rest, start⟩ = .ok (j, ⟨r ++ rest, last⟩) := by
  rw [scalar_eq] at hread ⊢
  simp only [named?_append cs h] at hread ⊢
  cases hnamed : named? cs with
  | none =>
    rw [hnamed] at hread
    exact number_append hread h start
  | some entry =>
    have hlength := (prefix_of_named? hnamed).length_le
    rw [hnamed] at hread
    cases hread
    refine ⟨start + entry.1.length, ?_⟩
    simp only [Cursor.skip]
    rw [List.drop_append_of_le_length hlength]

/-- Whether a character starts a name or a number. -/
def startsScalar (c : Char) : Bool :=
  c.isDigit || ['-', 'n', 't', 'f', 'N', 'I'].contains c

/-- What is read as a scalar starts as one does. -/
theorem startsScalar_of_scalar {c c' : Cursor} {j : Json} (h : scalar c = .ok (j, c')) :
    ∃ a cs, c.rest = a :: cs ∧ startsScalar a = true := by
  have hall : ((names.map Prod.fst).all fun name => name.head?.any startsScalar) = true := rfl
  rw [scalar_eq] at h
  cases hnamed : named? c.rest with
  | some entry =>
    obtain ⟨name, value⟩ := entry
    have hmem := List.mem_of_find?_eq_some hnamed
    have hhead := List.all_eq_true.mp hall name (List.mem_map_of_mem hmem)
    obtain ⟨a, ha, hstart⟩ := (Option.any_eq_true _ _).mp hhead
    obtain ⟨rest, hrest⟩ := prefix_of_named? hnamed
    cases name with
    | nil => cases ha
    | cons b name =>
      obtain rfl := Option.some.inj ha
      exact ⟨b, name ++ rest, hrest.symm, hstart⟩
  | none =>
    -- A number starts with its sign or with the first of its digits.
    rw [hnamed] at h
    simp only [number_eq] at h
    split at h
    · cases h
    rename_i hwhole
    cases hrest : c.rest with
    | nil =>
      rw [hrest] at hwhole
      exact absurd rfl hwhole
    | cons a cs =>
      refine ⟨a, cs, rfl, ?_⟩
      by_cases hminus : a = '-'
      · rw [hminus]
        rfl
      have hscan : (Numeral.scan (a :: cs)).whole = wholePart (a :: cs) := by
        have hhead : ((a :: cs).head? == some '-') = false := by simp [hminus]
        unfold Numeral.scan
        simp only [hhead]
        rfl
      have hne : wholePart (a :: cs) ≠ [] := by
        rw [hrest, hscan] at hwhole
        simpa using hwhole
      rw [startsScalar, isDigit_of_mem_wholePart (mem_wholePart_head hne), Bool.true_or]

/-! ## Whole numbers -/

/-- The digits of a number read back as this number. -/
theorem decimalValue_toDigits (m : Nat) : decimalValue (Nat.toDigits 10 m) = m := by
  have hfold := Nat.ofDigitChars_ten_toDigits (n := m)
  rw [Nat.ofDigitChars_eq_foldl] at hfold
  have hsame : (fun n (d : Char) => n * 10 + (d.toNat - 48))
      = fun n (d : Char) => 10 * n + (d.toNat - '0'.toNat) := by
    funext n d
    rw [Nat.mul_comm]
    rfl
  rw [decimalValue, hsame]
  exact hfold

/-- So many digits read as less than that power of ten. -/
theorem decimalValue_lt {ds : List Char} (h : ∀ d ∈ ds, d.isDigit = true) :
    decimalValue ds < Nat.pow 10 ds.length := by
  -- The digits are read onto what was read before them.
  have hgo : ∀ n, ds.foldl (fun n d => n * 10 + (d.toNat - 48)) n < (n + 1) * 10 ^ ds.length := by
    induction ds with
    | nil =>
      intro n
      show n < (n + 1) * 1
      omega
    | cons d ds ih =>
      intro n
      have hd := h d List.mem_cons_self
      simp only [Char.isDigit, Bool.and_eq_true, decide_eq_true_eq] at hd
      have hd' : d.toNat - 48 < 10 := by
        have : d.toNat ≤ 57 := hd.2
        omega
      have hstep := ih (fun c hc => h c (List.mem_cons_of_mem _ hc)) (n * 10 + (d.toNat - 48))
      refine Nat.lt_of_lt_of_le hstep ?_
      rw [List.length_cons, Nat.pow_succ', ← Nat.mul_assoc]
      exact Nat.mul_le_mul_right _ (by omega)
  have hzero := hgo 0
  rw [Nat.zero_add, Nat.one_mul] at hzero
  exact hzero

/-- The digits of a number that is not zero do not start with a zero. -/
theorem head_toDigits_ne_zero {m : Nat} (hm : m ≠ 0) :
    ∀ c ∈ (Nat.toDigits 10 m).head?, c ≠ '0' := by
  -- The first digit is that of the tenth part, down to a single digit.
  induction m using Nat.strongRecOn with
  | ind m ih =>
    by_cases hsmall : m < 10
    · have hdigits : ∀ d < 10, d ≠ 0 → Nat.digitChar d ≠ '0' := by decide
      rw [Nat.toDigits_of_lt_base hsmall]
      intro c hc
      obtain rfl := Option.some.inj hc
      exact hdigits m hsmall hm
    · have hrec := ih (m / 10) (by omega) (by omega)
      rw [Nat.toDigits_of_base_le (by omega) (by omega)]
      cases hdigits : Nat.toDigits 10 (m / 10) with
      | nil => exact absurd hdigits Nat.toDigits_ne_nil
      | cons d ds =>
        rw [hdigits] at hrec
        exact hrec

/-- The digits of a number are a whole part. -/
theorem wholePart_toDigits (m : Nat) : wholePart (Nat.toDigits 10 m) = Nat.toDigits 10 m := by
  by_cases hm : m = 0
  · rw [hm]
    rfl
  cases hdigits : Nat.toDigits 10 m with
  | nil => exact absurd hdigits Nat.toDigits_ne_nil
  | cons d ds =>
    have hd : d ≠ '0' := head_toDigits_ne_zero hm d (by rw [hdigits]; rfl)
    have hall : ∀ c ∈ d :: ds, c.isDigit = true := by
      intro c hc
      rw [← hdigits] at hc
      exact Nat.isDigit_of_mem_toDigits (by omega) (by omega) hc
    rw [wholePart_cons_of_ne hd, List.takeWhile_eq_self_iff]
    exact hall

/-- A whole number is shown by a minus sign, if it is negative, and the digits of its size. -/
theorem toList_toString_int (n : Int) :
    (toString n).toList = (if n < 0 then ['-'] else []) ++ Nat.toDigits 10 n.natAbs := by
  show n.repr.toList = _
  cases n with
  | ofNat m =>
    have hm : ¬Int.ofNat m < 0 := Int.not_lt.mpr (Int.natCast_nonneg m)
    rw [if_neg hm, List.nil_append]
    exact Nat.toList_repr
  | negSucc m =>
    rw [if_pos (by omega)]
    show ("-" ++ (m + 1).repr).toList = _
    rw [String.toList_append, Nat.toList_repr]
    rfl

/-- The digits of a number are its whole part, and nothing else stands there. -/
theorem Numeral.scan_int (n : Int) :
    scan (toString n).toList
      = ⟨decide (n < 0), Nat.toDigits 10 n.natAbs, [], none, (toString n).toList.length⟩ := by
  have hdrop (ds : List Char) : ds.drop ds.length = [] := List.drop_eq_nil_of_le (Nat.le_refl _)
  rw [toList_toString_int]
  -- Behind the digits there is nothing left for a fraction or an exponent.
  by_cases hn : n < 0
  · rw [if_pos hn, decide_eq_true hn]
    unfold scan
    simp only [List.singleton_append, List.head?_cons, beq_self_eq_true, if_true, List.drop_one,
      List.tail_cons, wholePart_toDigits, hdrop]
    simp [fractionPart, exponentPart, Nat.add_comm]
  · rw [if_neg hn, decide_eq_false hn, List.nil_append]
    have hhead : ((Nat.toDigits 10 n.natAbs).head? == some '-') = false := by
      cases hdigits : Nat.toDigits 10 n.natAbs with
      | nil => rfl
      | cons d ds =>
        have hd : d.isDigit = true := Nat.isDigit_of_mem_toDigits (by omega) (by omega)
          (hdigits ▸ List.mem_cons_self)
        have hne : d ≠ '-' := by
          rintro rfl
          cases hd
        simp [hne]
    unfold scan
    simp only [hhead, Bool.false_eq_true, if_false, List.drop_zero, wholePart_toDigits, hdrop]
    simp [fractionPart, exponentPart]

/-- The first character behind the sign of a whole number is a digit. -/
theorem isDigit_of_find?_int {n : Int} {c : Char}
    (h : (toString n).toList.find? (· != '-') = some c) : c.isDigit = true := by
  have hmem := List.mem_of_find?_eq_some h
  rw [toList_toString_int, List.mem_append] at hmem
  rcases hmem with hsign | hdigit
  · have hc : c = '-' := by
      split at hsign
      · exact List.mem_singleton.mp hsign
      · cases hsign
    rw [hc] at h
    exact absurd (List.find?_some h) Bool.false_ne_true
  · exact Nat.isDigit_of_mem_toDigits (by omega) (by omega) hdigit

/-- No name starts the digits of a number. -/
theorem named?_int (n : Int) : named? (toString n).toList = none := by
  have hall : ((names.map Prod.fst).all fun name =>
      (name.find? (· != '-')).any fun a => !a.isDigit) = true := rfl
  refine List.find?_eq_none.mpr fun entry hentry htest => ?_
  have hletter := List.all_eq_true.mp hall _ (List.mem_map_of_mem hentry)
  obtain ⟨a, ha, hdigit⟩ := (Option.any_eq_true _ _).mp hletter
  have hfront := List.isPrefixOf_iff_prefix.mp htest
  have hfound : (toString n).toList.find? (· != '-') = some a := hfront.find?_eq_some ha
  rw [isDigit_of_find?_int hfound] at hdigit
  cases hdigit

/-- **A whole number reads back from its digits**, if there are not too many. -/
theorem scalar_int {n : Int} (hn : (Nat.toDigits 10 n.natAbs).length ≤ maxDigits)
    (position : Nat) :
    ∃ last, scalar ⟨(toString n).toList, position⟩ = .ok (.int n, ⟨[], last⟩) := by
  rw [scalar_eq]
  simp only [named?_int, number_eq, Numeral.scan_int]
  refine ⟨position + (toString n).toList.length, ?_⟩
  rw [if_neg (by simp), if_pos (by simp), if_neg (by omega), decimalValue_toDigits]
  have hskip : Cursor.skip ⟨(toString n).toList, position⟩ (toString n).toList.length
      = ⟨[], position + (toString n).toList.length⟩ := by
    rw [Cursor.skip, List.drop_eq_nil_of_le (Nat.le_refl _)]
  rw [hskip]
  by_cases hneg : n < 0
  · rw [decide_eq_true hneg, if_pos rfl, show -(n.natAbs : Int) = n by omega]
  · rw [decide_eq_false hneg, if_neg Bool.false_ne_true, show (n.natAbs : Int) = n by omega]

/-- A whole number that was read has not too many digits. -/
theorem length_toDigits_of_number {c c' : Cursor} {n : Int} (h : number c = .ok (.int n, c')) :
    (Nat.toDigits 10 n.natAbs).length ≤ maxDigits := by
  rw [number_eq] at h
  simp only at h
  split at h
  · cases h
  split at h
  · split at h
    · cases h
    · rename_i hdigits
      -- The number is less than ten to the count of its digits.
      have hvalue : n.natAbs = decimalValue (Numeral.scan c.rest).whole := by
        simp only [Except.ok.injEq, Prod.mk.injEq, Json.int.injEq] at h
        rw [← h.1]
        split <;> simp
      have hlt : decimalValue (Numeral.scan c.rest).whole < _ :=
        decimalValue_lt fun d hd => isDigit_of_mem_wholePart hd
      have hle : 10 ^ (Numeral.scan c.rest).whole.length ≤ 10 ^ maxDigits :=
        Nat.pow_le_pow_right (by omega) (by omega)
      rw [Nat.length_toDigits_le_iff (by omega) (by decide), hvalue]
      exact Nat.lt_of_lt_of_le hlt hle
  · cases h

/-- A scalar is read by going on in the text. -/
theorem exists_drop_of_scalar {c c' : Cursor} {j : Json} (h : scalar c = .ok (j, c')) :
    ∃ n, c' = c.skip n := by
  rw [scalar_eq] at h
  split at h
  · cases h
    exact ⟨_, rfl⟩
  · rw [number_eq] at h
    simp only at h
    split at h
    · cases h
    split at h
    · split at h
      · cases h
      · cases h
        exact ⟨_, rfl⟩
    · cases h
      exact ⟨_, rfl⟩

/-- Only names and numbers are read as scalars, and the whole numbers among them are short enough. -/
theorem isScalar_of_scalar {c c' : Cursor} {j : Json} (h : scalar c = .ok (j, c')) :
    j = .null ∨ (∃ b, j = .bool b) ∨ (∃ x, j = .float x) ∨
      ∃ n, j = .int n ∧ (Nat.toDigits 10 n.natAbs).length ≤ maxDigits := by
  rw [scalar_eq] at h
  split at h
  · rename_i name value hnamed
    have hmem : value ∈ names.map Prod.snd := List.mem_map_of_mem (List.mem_of_find?_eq_some hnamed)
    cases h
    simp only [names, List.map_cons, List.map_nil, List.mem_cons, List.not_mem_nil, or_false] at hmem
    rcases hmem with rfl | rfl | rfl | rfl | rfl | rfl
    · exact .inl rfl
    · exact .inr (.inl ⟨true, rfl⟩)
    · exact .inr (.inl ⟨false, rfl⟩)
    · exact .inr (.inr (.inl ⟨_, rfl⟩))
    · exact .inr (.inr (.inl ⟨_, rfl⟩))
    · exact .inr (.inr (.inl ⟨_, rfl⟩))
  · cases j with
    | int n => exact .inr (.inr (.inr ⟨n, rfl, length_toDigits_of_number h⟩))
    | float x => exact .inr (.inr (.inl ⟨x, rfl⟩))
    | _ =>
      -- A number is a whole number or a double.
      rw [number_eq] at h
      simp only at h
      split at h
      · cases h
      split at h
      · split at h <;> cases h
      · cases h

/-! ## Doubles -/

/-- A double **reads back** when its text is read as this double. -/
def DoubleReadsBack (x : Float) : Prop := decode (Json.float x).encode = .ok (.float x)

/-- A digit is no gap. -/
theorem isGap_of_isDigit {c : Char} (h : c.isDigit = true) : isGap c = false := by
  have hne (d : Char) (hd : d.isDigit = false) : (c == d) = false := by
    refine beq_false_of_ne ?_
    rintro rfl
    rw [h] at hd
    cases hd
  rw [isGap, hne ' ' rfl, hne '\t' rfl, hne '\n' rfl, hne '\r' rfl]
  rfl

/-- No blank stands in a text when none of its characters is one. -/
theorem isGap_of_all {cs : List Char} (h : (cs.all fun c => !isGap c) = true) {c : Char}
    (hc : c ∈ cs) : isGap c = false := by
  have hchar := List.all_eq_true.mp h c hc
  rwa [Bool.not_eq_true'] at hchar

/-- A shown number has no gaps. -/
theorem isGap_toString_nat {n : Nat} {c : Char} (h : c ∈ (toString n).toList) : isGap c = false := by
  have hmem : c ∈ Nat.toDigits 10 n := by
    rw [← Nat.toList_repr]
    exact h
  exact isGap_of_isDigit (Nat.isDigit_of_mem_toDigits (by omega) (by omega) hmem)

/-- Zeros have no gaps. -/
theorem isGap_replicate_zero {n : Nat} {c : Char} (h : c ∈ List.replicate n '0') :
    isGap c = false := by
  rw [List.eq_of_mem_replicate h]
  rfl

/-- A padded number has no gaps. -/
theorem isGap_padded {width n : Nat} {c : Char}
    (h : c ∈ (Decimal.padded width (toString n)).toList) : isGap c = false := by
  rw [Decimal.padded, String.toList_append, String.toList_ofList] at h
  rcases List.mem_append.mp h with h | h
  · exact isGap_replicate_zero h
  · exact isGap_toString_nat h

/-- A shown double has no gaps, if its marks have none. -/
theorem isGap_write {l : Decimal.Layout} {d : Decimal.Digits} {c : Char}
    (hwhole : ∀ c ∈ l.wholeMark.toList, isGap c = false)
    (hexponent : ∀ c ∈ l.exponentMark.toList, isGap c = false)
    (h : c ∈ (l.write d).toList) : isGap c = false := by
  have hdigit {c : Char} (hc : c ∈ (toString d.digits).toList) : isGap c = false :=
    isGap_toString_nat hc
  unfold Decimal.Layout.write at h
  simp only at h
  -- Plain notation has three forms, by where the point stands; otherwise there is an exponent.
  split at h
  · split at h
    · simp only [String.toList_append, String.toList_ofList, List.mem_append] at h
      rcases h with (h | h) | h
      · exact hdigit h
      · exact isGap_replicate_zero h
      · exact hwhole c h
    split at h
    · simp only [String.toList_ofList, List.mem_append, List.mem_cons] at h
      rcases h with h | rfl | h
      · exact hdigit (List.mem_of_mem_take h)
      · rfl
      · exact hdigit (List.mem_of_mem_drop h)
    · simp only [String.toList_append, String.toList_ofList, List.mem_append] at h
      rcases h with h | h | h
      · exact isGap_of_all rfl h
      · exact isGap_replicate_zero h
      · exact hdigit h
  · simp only [String.toList_append, String.toList_ofList, List.mem_append] at h
    rcases h with (((h | h) | h) | h) | h
    · exact hdigit (List.mem_of_mem_take h)
    · split at h
      · cases h
      · simp only [String.toList_append, String.toList_ofList, List.mem_append] at h
        rcases h with h | h
        · exact isGap_of_all rfl h
        · exact hdigit (List.mem_of_mem_drop h)
    · exact hexponent c h
    · split at h
      · exact isGap_of_all rfl h
      · exact isGap_of_all rfl h
    · exact isGap_padded h

/-- No blank stands in the text of a double. -/
theorem isGap_floatText {x : Float} {c : Char} (h : c ∈ (floatText textLayout x).toList) :
    isGap c = false := by
  have hsign (negative : Bool) : ∀ c ∈ (if negative then "-" else "").toList, isGap c = false := by
    cases negative
    · exact fun _ => isGap_of_all rfl
    · exact fun _ => isGap_of_all rfl
  unfold floatText Decimal.Layout.double at h
  split at h
  · rw [String.toList_append] at h
    rcases List.mem_append.mp h with h | h
    · exact hsign _ c h
    · exact isGap_write (fun _ => isGap_of_all rfl) (fun _ => isGap_of_all rfl) h
  · rw [String.toList_append] at h
    rcases List.mem_append.mp h with h | h
    · exact hsign _ c h
    · exact isGap_of_all rfl h
  · exact isGap_of_all rfl h

end CommandShell.Json

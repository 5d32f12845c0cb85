import CommandShell.Proofs.Json.Numbers
import CommandShell.Proofs.Json.Strings
import CommandShell.Proofs.Table

/-! # Values read back

A value reads back from the text that is written for it when it is `Faithful`: its texts are joined,
its numbers are not too long, the doubles in it read back, no object names a member twice, and not too
many arrays and objects are nested (`decode_encode`). A value that was read is faithful as far as its
doubles are (`faithful_of_decodeChars`). -/

namespace CommandShell

namespace Json

/-- A value that reads back, where at most so many arrays and objects may be open at once. -/
def Faithful : Nat → Json → Prop
  | _, .null => True
  | _, .bool _ => True
  | _, .int n => (Nat.toDigits 10 n.natAbs).length ≤ maxDigits
  | _, .float x => DoubleReadsBack x
  | _, .str s => s.Joined
  | 0, .arr _ => False
  | 0, .obj _ => False
  | depth + 1, .arr js => ∀ j ∈ js, Faithful depth j
  | depth + 1, .obj ms =>
    (ms.map Prod.fst).Nodup ∧ ∀ m ∈ ms, m.1.Joined ∧ Faithful depth m.2

/-! ## Texts of values -/

/-- The texts of items are their own texts at the same level. -/
theorem encodeAll_eq_map (level : Nat) (js : List Json) :
    encodeAll level js = js.map (encodeAt level) := by
  induction js with
  | nil => rw [encodeAll, List.map_nil]
  | cons j js ih => rw [encodeAll, ih, List.map_cons]

/-- A member of an object, at the given level. -/
def encodeMember (level : Nat) (m : RawText × Json) : String :=
  encodeString m.1 ++ ": " ++ m.2.encodeAt level

/-- The texts of members are their own texts at the same level. -/
theorem encodeMembers_eq_map (level : Nat) (ms : List (RawText × Json)) :
    encodeMembers level ms = ms.map (encodeMember level) := by
  induction ms with
  | nil => rw [encodeMembers, List.map_nil]
  | cons m ms ih => rw [encodeMembers, ih, List.map_cons, encodeMember]

/-- What stands between the brackets of an array or an object after the first break of line, with the
closing bracket. -/
def enclosed (level : Nat) (close : Char) (texts : List String) : List Char :=
  (("," ++ lineBreak (level + 1)).intercalate texts).toList ++
    (lineBreak level).toList ++ [close]

/-- An array with items is shown by an opening bracket, a line break, and what is enclosed. -/
theorem toList_encodeAt_arr (level : Nat) (j : Json) (js : List Json) :
    ((Json.arr (j :: js)).encodeAt level).toList
      = '[' :: ((lineBreak (level + 1)).toList ++
        enclosed level ']' ((j :: js).map (encodeAt (level + 1)))) := by
  rw [encodeAt, encodeAll_eq_map]
  · simp [enclosed]
  · exact List.cons_ne_nil _ _

/-- An object with members is shown by an opening brace, a line break, and what is enclosed. -/
theorem toList_encodeAt_obj (level : Nat) (m : RawText × Json) (ms : List (RawText × Json)) :
    ((Json.obj (m :: ms)).encodeAt level).toList
      = '\x7b' :: ((lineBreak (level + 1)).toList ++
        enclosed level '\x7d' ((m :: ms).map (encodeMember (level + 1)))) := by
  rw [encodeAt, encodeMembers_eq_map]
  · simp [enclosed]
  · exact List.cons_ne_nil _ _

/-- The last text is followed by a line break and the closing bracket. -/
theorem enclosed_singleton (level : Nat) (close : Char) (text : String) :
    enclosed level close [text] = text.toList ++ ((lineBreak level).toList ++ [close]) := by
  rw [enclosed, String.intercalate_singleton, List.append_assoc]

/-- Any other text is followed by a comma and a line break. -/
theorem enclosed_cons_cons (level : Nat) (close : Char) (text next : String)
    (texts : List String) :
    enclosed level close (text :: next :: texts)
      = text.toList ++ (',' :: ((lineBreak (level + 1)).toList ++
        enclosed level close (next :: texts))) := by
  rw [enclosed, enclosed, String.intercalate_cons_cons]
  simp

/-- What is enclosed starts as the first of its texts does. -/
theorem exists_enclosed_eq_cons {text : String} {a : Char} {cs : List Char} (h : text.toList = a :: cs)
    (level : Nat) (close : Char) (texts : List String) :
    ∃ cs', enclosed level close (text :: texts) = a :: cs' := by
  cases texts with
  | nil => exact ⟨_, by rw [enclosed_singleton, h, List.cons_append]⟩
  | cons next texts => exact ⟨_, by rw [enclosed_cons_cons, h, List.cons_append]⟩

/-! ## Blanks between tokens -/

/-- No gap is skipped where none stands. -/
theorem skipGaps_of_head {c : Char} (h : isGap c = false) (cs : List Char) (position : Nat) :
    Cursor.skipGaps ⟨c :: cs, position⟩ = ⟨c :: cs, position⟩ := by
  rw [Cursor.skipGaps, List.takeWhile_cons_of_neg (by simp [h])]
  rfl

/-- Blanks before a token are passed over. -/
theorem skipGaps_append {gaps : List Char} (hgaps : ∀ c ∈ gaps, isGap c = true) {c : Char}
    (h : isGap c = false) (cs : List Char) (position : Nat) :
    Cursor.skipGaps ⟨gaps ++ c :: cs, position⟩ = ⟨c :: cs, position + gaps.length⟩ := by
  have htaken : (gaps ++ c :: cs).takeWhile isGap = gaps := by
    rw [List.takeWhile_append_of_pos hgaps, List.takeWhile_cons_of_neg (by simp [h]),
      List.append_nil]
  rw [Cursor.skipGaps, htaken, Cursor.skip, List.drop_left]

/-- A line break and its indentation are gaps. -/
theorem isGap_lineBreak (level : Nat) : ∀ c ∈ (lineBreak level).toList, isGap c = true := by
  intro c hc
  rw [lineBreak, String.toList_ofList] at hc
  rcases List.mem_cons.mp hc with rfl | hc
  · rfl
  · rw [List.eq_of_mem_replicate hc]
    rfl

/-- A line break may stand behind a value. -/
theorem stops_lineBreak (level : Nat) (cs : List Char) :
    Stops ((lineBreak level).toList ++ cs) := by
  rw [lineBreak, String.toList_ofList]
  exact stops_newline _

/-! ## Reading values -/

/-- Whether a character starts a value. -/
def startsValue (c : Char) : Bool := startsScalar c || ['"', '[', '\x7b'].contains c

/-- What starts a value is none of the characters that start none. -/
theorem ne_of_startsValue {a b : Char} (ha : startsValue a = true) (hb : startsValue b = false) :
    a ≠ b := by
  rintro rfl
  rw [ha] at hb
  cases hb

/-- What starts a value is no gap. -/
theorem isGap_of_startsValue {a : Char} (h : startsValue a = true) : isGap a = false := by
  have hne (b : Char) (hb : startsValue b = false) : (a == b) = false :=
    beq_false_of_ne (ne_of_startsValue h hb)
  rw [isGap, hne ' ' rfl, hne '\t' rfl, hne '\n' rfl, hne '\r' rfl]
  rfl

/-- A text is read as a value wherever it stands: with whatever behind it that may follow a value. -/
structure Reads (depth : Nat) (text : List Char) (j : Json) : Prop where
  /-- The text starts as a value does. -/
  head : ∃ a cs, text = a :: cs ∧ startsValue a = true
  /-- The reader takes the text as the value, with as much fuel as there are characters. -/
  value : ∀ fuel rest position, text.length ≤ fuel → Stops rest →
    ∃ last, Json.value fuel depth ⟨text ++ rest, position⟩ = .ok (j, ⟨rest, last⟩)

/-- Where a scalar starts, the reader of values reads a scalar. -/
theorem value_of_startsScalar {a : Char} (h : startsScalar a = true) (fuel depth : Nat)
    (cs : List Char) (position : Nat) :
    value (fuel + 1) depth ⟨a :: cs, position⟩ = scalar ⟨a :: cs, position⟩ := by
  rw [value.eq_def]
  simp only
  split
  · rename_i heq
    rw [(List.cons.inj heq).1] at h
    cases h
  · rename_i heq
    rw [(List.cons.inj heq).1] at h
    cases h
  · rename_i heq
    rw [(List.cons.inj heq).1] at h
    cases h
  · rfl

/-- What the reader takes whole for a name or a number reads as a value. -/
theorem reads_of_scalar {text : List Char} {j : Json} {position last : Nat}
    (h : scalar ⟨text, position⟩ = .ok (j, ⟨[], last⟩)) (depth : Nat) : Reads depth text j := by
  obtain ⟨a, cs, htext, hstart⟩ := startsScalar_of_scalar h
  simp only at htext
  refine ⟨⟨a, cs, htext, ?_⟩, ?_⟩
  · rw [startsValue, hstart, Bool.true_or]
  · intro fuel rest position hfuel hstops
    obtain ⟨fuel, rfl⟩ : ∃ n, fuel = n + 1 := by
      rw [htext, List.length_cons] at hfuel
      exact ⟨fuel - 1, by omega⟩
    obtain ⟨last, hread⟩ := scalar_append h hstops position
    refine ⟨last, ?_⟩
    rw [htext] at hread ⊢
    rw [List.cons_append, value_of_startsScalar hstart]
    exact hread

/-- A joined string is read back. -/
theorem reads_str {s : RawText} (h : s.Joined) (depth level : Nat) :
    Reads depth ((Json.str s).encodeAt level).toList (.str s) := by
  have htext : ((Json.str s).encodeAt level).toList
      = '"' :: (s.points.flatMap escapePoint ++ ['"']) := by
    rw [encodeAt, encodeString, String.toList_ofList]
    rfl
  refine ⟨⟨_, _, htext, rfl⟩, ?_⟩
  intro fuel rest position hfuel _
  obtain ⟨fuel, rfl⟩ : ∃ n, fuel = n + 1 := by
    rw [htext, List.length_cons] at hfuel
    exact ⟨fuel - 1, by omega⟩
  obtain ⟨last, hread⟩ := string_encodeString h rest position
  refine ⟨last, ?_⟩
  -- The quote in front tells the reader that a string comes.
  have hcons : ((Json.str s).encodeAt level).toList ++ rest
      = '"' :: (s.points.flatMap escapePoint ++ ['"'] ++ rest) := by
    rw [htext]
    rfl
  have hsame : (encodeString s).toList = ((Json.str s).encodeAt level).toList := by rw [encodeAt]
  rw [hsame, hcons] at hread
  rw [hcons, value.eq_def]
  simp only [hread]
  rfl

/-! ## Arrays -/

/-- The last item of an array. -/
theorem items_last {fuel depth level position last : Nat} {cs rest : List Char} {j : Json}
    (read : List Json)
    (h : value fuel depth ⟨cs, position⟩
      = .ok (j, ⟨(lineBreak level).toList ++ ']' :: rest, last⟩)) :
    ∃ last, items (fuel + 1) depth read ⟨cs, position⟩ = .ok ((j :: read).reverse, ⟨rest, last⟩) := by
  have hgaps := skipGaps_append (isGap_lineBreak level) (c := ']') rfl rest last
  refine ⟨last + (lineBreak level).toList.length + 1, ?_⟩
  rw [items, h]
  simp only [hgaps]
  rfl

/-- An item of an array that another one follows. -/
theorem items_more {fuel depth level position last : Nat} {a : Char} {cs rest : List Char}
    {j : Json} (read : List Json) (ha : isGap a = false)
    (h : value fuel depth ⟨cs, position⟩
      = .ok (j, ⟨',' :: ((lineBreak level).toList ++ a :: rest), last⟩)) :
    ∃ last, items (fuel + 1) depth read ⟨cs, position⟩
      = items fuel depth (j :: read) ⟨a :: rest, last⟩ := by
  have hcomma := skipGaps_of_head (c := ',') rfl ((lineBreak level).toList ++ a :: rest) last
  have hgaps := skipGaps_append (isGap_lineBreak level) ha rest (last + 1)
  refine ⟨last + 1 + (lineBreak level).toList.length, ?_⟩
  rw [items, h]
  simp only [hcomma]
  rw [← hgaps]
  rfl

/-- The items of an array read back if each of them does. -/
theorem items_enclosed {depth level : Nat} {js : List Json} (hne : js ≠ [])
    (h : ∀ j ∈ js, Reads depth (j.encodeAt (level + 1)).toList j) (read : List Json) {fuel : Nat}
    (hfuel : (enclosed level ']' (js.map (encodeAt (level + 1)))).length ≤ fuel)
    (rest : List Char) (position : Nat) :
    ∃ last, items fuel depth read
        ⟨enclosed level ']' (js.map (encodeAt (level + 1))) ++ rest, position⟩
      = .ok (read.reverse ++ js, ⟨rest, last⟩) := by
  induction js generalizing read fuel position with
  | nil => exact absurd rfl hne
  | cons j js ih =>
    have hj := h j List.mem_cons_self
    cases js with
    | nil =>
      simp only [List.map_cons, List.map_nil, enclosed_singleton, List.length_append,
        List.length_singleton] at hfuel ⊢
      obtain ⟨fuel, rfl⟩ : ∃ n, fuel = n + 1 := ⟨fuel - 1, by omega⟩
      obtain ⟨mid, hvalue⟩ := hj.value fuel ((lineBreak level).toList ++ ']' :: rest) position
        (by omega) (stops_lineBreak _ _)
      obtain ⟨last, hitems⟩ := items_last read hvalue
      refine ⟨last, ?_⟩
      simp only [List.append_assoc, List.singleton_append]
      rw [hitems, List.reverse_cons]
    | cons next js =>
      obtain ⟨a, cs, htext, hstart⟩ := (h next (by simp)).head
      have hgap := isGap_of_startsValue hstart
      simp only [List.map_cons, enclosed_cons_cons, List.length_append, List.length_cons]
        at hfuel ih ⊢
      obtain ⟨fuel, rfl⟩ : ∃ n, fuel = n + 1 := ⟨fuel - 1, by omega⟩
      -- The next item starts with a character that the reader does not pass over.
      obtain ⟨cs', hcs'⟩ :=
        exists_enclosed_eq_cons htext level ']' (js.map (encodeAt (level + 1)))
      obtain ⟨mid, hvalue⟩ := hj.value fuel (',' :: ((lineBreak (level + 1)).toList ++
        a :: (cs' ++ rest))) position (by omega) (stops_comma _)
      obtain ⟨mid', hmore⟩ := items_more read hgap hvalue
      have hfuel' : (enclosed level ']' (encodeAt (level + 1) next ::
          js.map (encodeAt (level + 1)))).length ≤ fuel := by omega
      obtain ⟨last, hitems⟩ := ih (List.cons_ne_nil _ _)
        (fun i hi => h i (List.mem_cons_of_mem _ hi)) (j :: read) hfuel' mid'
      refine ⟨last, ?_⟩
      rw [hcs'] at hitems ⊢
      simp only [List.append_assoc, List.cons_append] at hmore hitems ⊢
      rw [hmore, hitems, List.reverse_cons, List.append_assoc]
      rfl

/-- Behind an opening bracket and a line break, an array is the items that follow. -/
theorem value_arr {fuel depth level position : Nat} {a : Char} {cs : List Char}
    (ha : isGap a = false) (hclose : a ≠ ']') :
    value (fuel + 1) (depth + 1) ⟨'[' :: ((lineBreak level).toList ++ a :: cs), position⟩
      = (items fuel depth [] ⟨a :: cs, position + 1 + (lineBreak level).toList.length⟩).map
          fun (js, c) => (.arr js, c) := by
  have hgaps := skipGaps_append (isGap_lineBreak level) ha cs (position + 1)
  have hskip : Cursor.skip ⟨'[' :: ((lineBreak level).toList ++ a :: cs), position⟩ 1
      = ⟨(lineBreak level).toList ++ a :: cs, position + 1⟩ := rfl
  rw [value.eq_def]
  simp only [hskip, hgaps]
  split
  · rename_i heq
    exact absurd (List.cons.inj heq).1 hclose
  · rfl

/-! ## Objects -/

/-- What the reader of members does behind the value of a member. -/
def membersAfter (fuel depth : Nat) (read : Table RawText Json) (c : Cursor) :
    Read (Table RawText Json) :=
  let c := c.skipGaps
  match c.rest with
  | '\x7d' :: _ => .ok (read, c.skip 1)
  | ',' :: _ => members fuel depth read (c.skip 1).skipGaps
  | _ => c.fail .comma

/-- A member of an object is read if its name is joined and its value reads. -/
theorem members_member {depth level fuel : Nat} {m : RawText × Json} (hname : m.1.Joined)
    (h : Reads depth (m.2.encodeAt level).toList m.2)
    (hfuel : (m.2.encodeAt level).toList.length ≤ fuel) {tail : List Char} (htail : Stops tail)
    (read : Table RawText Json) (position : Nat) :
    ∃ last, members (fuel + 1) depth read ⟨(encodeMember level m).toList ++ tail, position⟩
      = membersAfter fuel depth (read.put m.1 m.2) ⟨tail, last⟩ := by
  obtain ⟨a, cs, htext, hstart⟩ := h.head
  have hgap := isGap_of_startsValue hstart
  have htoList : (encodeMember level m).toList ++ tail
      = (encodeString m.1).toList ++ ':' :: ' ' :: ((m.2.encodeAt level).toList ++ tail) := by
    rw [encodeMember, String.toList_append, String.toList_append]
    simp
  have hquote : ∃ more, (encodeString m.1).toList ++ ':' :: ' ' ::
      ((m.2.encodeAt level).toList ++ tail) = '"' :: more :=
    ⟨_, by rw [encodeString, String.toList_ofList]; rfl⟩
  obtain ⟨mid, hstring⟩ := string_encodeString hname
    (':' :: ' ' :: ((m.2.encodeAt level).toList ++ tail)) position
  have hcolon := skipGaps_of_head (c := ':') rfl (' ' :: ((m.2.encodeAt level).toList ++ tail)) mid
  have hblank : Cursor.skipGaps ⟨[' '] ++ a :: (cs ++ tail), mid + 1⟩
      = ⟨a :: (cs ++ tail), mid + 1 + 1⟩ :=
    skipGaps_append (List.forall_mem_singleton.mpr rfl) hgap (cs ++ tail) (mid + 1)
  obtain ⟨last, hvalue⟩ := h.value fuel tail (mid + 1 + 1) hfuel htail
  have hskip : (Cursor.skip ⟨':' :: ' ' :: ((m.2.encodeAt level).toList ++ tail), mid⟩ 1).skipGaps
      = ⟨(m.2.encodeAt level).toList ++ tail, mid + 1 + 1⟩ := by
    rw [htext]
    exact hblank
  refine ⟨last, ?_⟩
  rw [htoList]
  obtain ⟨more, hmore⟩ := hquote
  rw [hmore] at hstring ⊢
  rw [members.eq_def]
  simp only [hstring, hcolon, hskip, hvalue]
  rfl

/-- A closing brace on a line of its own ends the members. -/
theorem membersAfter_last (fuel depth level : Nat) (read : Table RawText Json) (rest : List Char)
    (position : Nat) :
    ∃ last, membersAfter fuel depth read ⟨(lineBreak level).toList ++ '\x7d' :: rest, position⟩
      = .ok (read, ⟨rest, last⟩) := by
  have hgaps := skipGaps_append (isGap_lineBreak level) (c := '\x7d') rfl rest position
  refine ⟨position + (lineBreak level).toList.length + 1, ?_⟩
  rw [membersAfter, hgaps]
  rfl

/-- Behind a comma and a line break the next member is read. -/
theorem membersAfter_more (fuel depth level : Nat) (read : Table RawText Json) {a : Char}
    (ha : isGap a = false) (rest : List Char) (position : Nat) :
    ∃ last, membersAfter fuel depth read
        ⟨',' :: ((lineBreak level).toList ++ a :: rest), position⟩
      = members fuel depth read ⟨a :: rest, last⟩ := by
  have hcomma := skipGaps_of_head (c := ',') rfl ((lineBreak level).toList ++ a :: rest) position
  have hgaps := skipGaps_append (isGap_lineBreak level) ha rest (position + 1)
  refine ⟨position + 1 + (lineBreak level).toList.length, ?_⟩
  rw [membersAfter, hcomma, ← hgaps]
  rfl

/-- The text of a member starts with a quote. -/
theorem toList_encodeMember (level : Nat) (m : RawText × Json) :
    ∃ cs, (encodeMember level m).toList = '"' :: cs := by
  have hquote : ∃ cs, (encodeString m.1).toList = '"' :: cs :=
    ⟨_, by rw [encodeString, String.toList_ofList]; rfl⟩
  obtain ⟨cs, hcs⟩ := hquote
  rw [encodeMember, String.toList_append, String.toList_append, hcs]
  exact ⟨_, rfl⟩

/-- The members of an object read back if each of them does and no name comes twice. -/
theorem members_enclosed {depth level : Nat} {ms : List (RawText × Json)} (hne : ms ≠ [])
    (h : ∀ m ∈ ms, m.1.Joined ∧ Reads depth (m.2.encodeAt (level + 1)).toList m.2)
    (read : Table RawText Json) (hkeys : (read.keys ++ ms.map Prod.fst).Nodup) {fuel : Nat}
    (hfuel : (enclosed level '\x7d' (ms.map (encodeMember (level + 1)))).length ≤ fuel)
    (rest : List Char) (position : Nat) :
    ∃ last, members fuel depth read
        ⟨enclosed level '\x7d' (ms.map (encodeMember (level + 1))) ++ rest, position⟩
      = .ok (⟨read.toList ++ ms⟩, ⟨rest, last⟩) := by
  induction ms generalizing read fuel position with
  | nil => exact absurd rfl hne
  | cons m ms ih =>
    obtain ⟨hname, hvalue⟩ := h m List.mem_cons_self
    have hnew : m.1 ∉ read.keys := fun hm =>
      (List.nodup_append.mp hkeys).2.2 _ hm _ List.mem_cons_self rfl
    -- A new name goes to the end of the table, so the order of the text is kept.
    have hput : read.put m.1 m.2 = ⟨read.toList ++ [m]⟩ := Table.put_of_not_mem hnew m.2
    have hle : (m.2.encodeAt (level + 1)).toList.length
        ≤ (encodeMember (level + 1) m).toList.length := by
      rw [encodeMember, String.toList_append, List.length_append]
      omega
    cases ms with
    | nil =>
      simp only [List.map_cons, List.map_nil, enclosed_singleton, List.length_append,
        List.length_singleton] at hfuel ⊢
      obtain ⟨fuel, rfl⟩ : ∃ n, fuel = n + 1 := ⟨fuel - 1, by omega⟩
      obtain ⟨mid, hmember⟩ := members_member hname hvalue (by omega : _ ≤ fuel)
        (stops_lineBreak level ('\x7d' :: rest)) read position
      obtain ⟨last, hlast⟩ := membersAfter_last fuel depth level (read.put m.1 m.2) rest mid
      refine ⟨last, ?_⟩
      simp only [List.append_assoc, List.singleton_append]
      rw [hmember, hlast, hput]
    | cons next ms =>
      obtain ⟨cs, hquote⟩ := toList_encodeMember (level + 1) next
      -- The next member starts with the quote of its name, where the reader stops passing over gaps.
      obtain ⟨cs', hcs'⟩ :=
        exists_enclosed_eq_cons hquote level '\x7d' (ms.map (encodeMember (level + 1)))
      simp only [List.map_cons, enclosed_cons_cons, List.length_append, List.length_cons]
        at hfuel ih ⊢
      obtain ⟨fuel, rfl⟩ : ∃ n, fuel = n + 1 := ⟨fuel - 1, by omega⟩
      have hfuel' : (enclosed level '\x7d' (encodeMember (level + 1) next ::
          ms.map (encodeMember (level + 1)))).length ≤ fuel := by omega
      have hkeys' : ((read.put m.1 m.2).keys ++ (next :: ms).map Prod.fst).Nodup := by
        rw [hput]
        show ((read.toList ++ [m]).map Prod.fst ++ _).Nodup
        rw [List.map_append, List.append_assoc]
        exact hkeys
      obtain ⟨mid, hmember⟩ := members_member hname hvalue (by omega : _ ≤ fuel)
        (stops_comma ((lineBreak (level + 1)).toList ++ '"' :: (cs' ++ rest))) read position
      obtain ⟨mid', hmore⟩ := membersAfter_more fuel depth (level + 1) (read.put m.1 m.2)
        (a := '"') rfl (cs' ++ rest) mid
      obtain ⟨last, hrest⟩ := ih (List.cons_ne_nil _ _)
        (fun i hi => h i (List.mem_cons_of_mem _ hi)) (read.put m.1 m.2) hkeys' hfuel' mid'
      refine ⟨last, ?_⟩
      rw [hcs'] at hrest ⊢
      simp only [List.append_assoc, List.cons_append] at hmember hmore hrest ⊢
      rw [hmember, hmore, hrest, hput, List.append_assoc]
      rfl

/-- Behind an opening brace and a line break, an object is the members that follow. -/
theorem value_obj {fuel depth level position : Nat} {cs : List Char} :
    value (fuel + 1) (depth + 1) ⟨'\x7b' :: ((lineBreak level).toList ++ '"' :: cs), position⟩
      = (members fuel depth {} ⟨'"' :: cs, position + 1 + (lineBreak level).toList.length⟩).map
          fun (t, c) => (.ofTable t, c) := by
  have hgaps := skipGaps_append (isGap_lineBreak level) (c := '"') rfl cs (position + 1)
  have hskip : Cursor.skip ⟨'\x7b' :: ((lineBreak level).toList ++ '"' :: cs), position⟩ 1
      = ⟨(lineBreak level).toList ++ '"' :: cs, position + 1⟩ := rfl
  rw [value.eq_def]
  simp only [hskip, hgaps]
  rfl

/-- An array is read back if its items are, one level deeper. -/
theorem reads_arr {depth level : Nat} {js : List Json}
    (h : ∀ j ∈ js, Reads depth (j.encodeAt (level + 1)).toList j) :
    Reads (depth + 1) ((Json.arr js).encodeAt level).toList (.arr js) := by
  cases js with
  | nil =>
    have htext : ((Json.arr []).encodeAt level).toList = ['[', ']'] := by
      rw [encodeAt]
      rfl
    refine ⟨⟨_, _, htext, rfl⟩, ?_⟩
    -- The closing bracket comes at once.
    intro fuel rest position hfuel _
    obtain ⟨fuel, rfl⟩ : ∃ n, fuel = n + 1 := by
      rw [htext, List.length_cons] at hfuel
      exact ⟨fuel - 1, by omega⟩
    have hclose := skipGaps_of_head (c := ']') rfl rest (position + 1)
    have hskip : Cursor.skip ⟨'[' :: ']' :: rest, position⟩ 1 = ⟨']' :: rest, position + 1⟩ := rfl
    refine ⟨position + 1 + 1, ?_⟩
    rw [htext, value.eq_def]
    simp only [List.cons_append, List.nil_append, hskip, hclose]
    rfl
  | cons j js =>
    obtain ⟨a, cs, htext, hstart⟩ := (h j List.mem_cons_self).head
    have hgap := isGap_of_startsValue hstart
    obtain ⟨cs', hcs'⟩ := exists_enclosed_eq_cons htext level ']' (js.map (encodeAt (level + 1)))
    rw [toList_encodeAt_arr]
    refine ⟨⟨_, _, rfl, rfl⟩, ?_⟩
    intro fuel rest position hfuel _
    simp only [List.length_cons, List.length_append] at hfuel
    obtain ⟨fuel, rfl⟩ : ∃ n, fuel = n + 1 := ⟨fuel - 1, by omega⟩
    obtain ⟨last, hitems⟩ := items_enclosed (List.cons_ne_nil j js) h [] (by omega : _ ≤ fuel) rest
      (position + 1 + (lineBreak (level + 1)).toList.length)
    refine ⟨last, ?_⟩
    rw [List.map_cons, hcs'] at hitems ⊢
    simp only [List.cons_append, List.append_assoc] at hitems ⊢
    rw [value_arr hgap (ne_of_startsValue hstart rfl), hitems]
    rfl

/-- An object is read back if its keys are joined and different and its values are read back, one level
deeper. -/
theorem reads_obj {depth level : Nat} {ms : List (RawText × Json)}
    (hkeys : (ms.map Prod.fst).Nodup)
    (h : ∀ m ∈ ms, m.1.Joined ∧ Reads depth (m.2.encodeAt (level + 1)).toList m.2) :
    Reads (depth + 1) ((Json.obj ms).encodeAt level).toList (.obj ms) := by
  cases ms with
  | nil =>
    have htext : ((Json.obj []).encodeAt level).toList = ['\x7b', '\x7d'] := by
      rw [encodeAt]
      rfl
    refine ⟨⟨_, _, htext, rfl⟩, ?_⟩
    -- The closing brace comes at once.
    intro fuel rest position hfuel _
    obtain ⟨fuel, rfl⟩ : ∃ n, fuel = n + 1 := by
      rw [htext, List.length_cons] at hfuel
      exact ⟨fuel - 1, by omega⟩
    have hclose := skipGaps_of_head (c := '\x7d') rfl rest (position + 1)
    have hskip : Cursor.skip ⟨'\x7b' :: '\x7d' :: rest, position⟩ 1 = ⟨'\x7d' :: rest, position + 1⟩ := rfl
    refine ⟨position + 1 + 1, ?_⟩
    rw [htext, value.eq_def]
    simp only [List.cons_append, List.nil_append, hskip, hclose]
    rfl
  | cons m ms =>
    obtain ⟨cs, hquote⟩ := toList_encodeMember (level + 1) m
    obtain ⟨cs', hcs'⟩ :=
      exists_enclosed_eq_cons hquote level '\x7d' (ms.map (encodeMember (level + 1)))
    rw [toList_encodeAt_obj]
    refine ⟨⟨_, _, rfl, rfl⟩, ?_⟩
    intro fuel rest position hfuel _
    simp only [List.length_cons, List.length_append] at hfuel
    obtain ⟨fuel, rfl⟩ : ∃ n, fuel = n + 1 := ⟨fuel - 1, by omega⟩
    obtain ⟨last, hmembers⟩ := members_enclosed (List.cons_ne_nil m ms) h {} hkeys
      (by omega : _ ≤ fuel) rest (position + 1 + (lineBreak (level + 1)).toList.length)
    refine ⟨last, ?_⟩
    rw [List.map_cons, hcs'] at hmembers ⊢
    simp only [List.cons_append, List.append_assoc] at hmembers ⊢
    rw [value_obj, hmembers]
    rfl

/-! ## What was read -/

/-- What a text is decoded to is a value behind its gaps, with only gaps behind it. -/
theorem exists_value_of_decodeChars {cs : List Char} {j : Json} (h : decodeChars cs = .ok j) :
    ∃ c, value (2 * cs.length + 2) maxDepth (Cursor.skipGaps ⟨cs, 0⟩) = .ok (j, c) ∧
      c.skipGaps.rest = [] := by
  unfold decodeChars at h
  simp only at h
  split at h
  · cases h
  split at h
  · cases h
  rename_i hvalue
  split at h
  · rename_i hrest
    cases h
    exact ⟨_, hvalue, by simpa using hrest⟩
  · cases h

/-- How a value was read: as a name or a number, as a string, or item by item or member by member. -/
theorem value_cases {fuel depth : Nat} {c c' : Cursor} {j : Json}
    (h : value (fuel + 1) depth c = .ok (j, c')) :
    scalar c = .ok (j, c') ∨ (∃ s, j = .str s ∧ string c = .ok (s, c')) ∨
      (∃ d js, depth = d + 1 ∧ j = .arr js ∧
        (js = [] ∨ ∃ start, items fuel d [] start = .ok (js, c'))) ∨
      ∃ d t, depth = d + 1 ∧ j = .ofTable t ∧
        (t = {} ∨ ∃ start, members fuel d {} start = .ok (t, c')) := by
  -- The first character decides: a quote, a bracket, a brace, or something else.
  rw [value.eq_def] at h
  simp only at h
  split at h
  · cases hstring : string c with
    | error e =>
      rw [hstring] at h
      cases h
    | ok r =>
      rw [hstring] at h
      cases h
      exact .inr (.inl ⟨r.1, rfl, rfl⟩)
  · split at h
    · cases h
    rename_i d
    split at h
    · cases h
      exact .inr (.inr (.inl ⟨d, [], rfl, rfl, .inl rfl⟩))
    · cases hitems : items fuel d [] (c.skip 1).skipGaps with
      | error e =>
        rw [hitems] at h
        cases h
      | ok r =>
        rw [hitems] at h
        cases h
        exact .inr (.inr (.inl ⟨d, r.1, rfl, rfl, .inr ⟨_, hitems⟩⟩))
  · split at h
    · cases h
    rename_i d
    split at h
    · cases h
      exact .inr (.inr (.inr ⟨d, {}, rfl, rfl, .inl rfl⟩))
    · cases hmembers : members fuel d {} (c.skip 1).skipGaps with
      | error e =>
        rw [hmembers] at h
        cases h
      | ok r =>
        rw [hmembers] at h
        cases h
        exact .inr (.inr (.inr ⟨d, r.1, rfl, rfl, .inr ⟨_, hmembers⟩⟩))
  · exact .inl h

/-- A double that reads back is taken whole by the reader of names and numbers. -/
theorem scalar_of_doubleReadsBack {x : Float} (h : DoubleReadsBack x) :
    ∃ last, scalar ⟨(floatText textLayout x).toList, 0⟩ = .ok (.float x, ⟨[], last⟩) := by
  have hgap : ∀ c ∈ (floatText textLayout x).toList, isGap c = false := fun c => isGap_floatText
  have hread : decodeChars (floatText textLayout x).toList = .ok (.float x) := by
    have hencode : (Json.float x).encode = floatText textLayout x := by rw [encode, encodeAt]
    rw [← hencode]
    exact h
  generalize (floatText textLayout x).toList = cs at hgap hread
  have hskip (ds : List Char) (hds : ∀ c ∈ ds, isGap c = false) (position : Nat) :
      Cursor.skipGaps ⟨ds, position⟩ = ⟨ds, position⟩ := by
    cases ds with
    | nil => rfl
    | cons d ds => exact skipGaps_of_head (hds d List.mem_cons_self) ds position
  obtain ⟨⟨rest, position⟩, hvalue, hrest⟩ := exists_value_of_decodeChars hread
  rw [hskip cs hgap] at hvalue
  -- A double is read neither as a string nor as an array or an object.
  obtain hscalar | ⟨s, hs, _⟩ | ⟨d, js, _, hjs, _⟩ | ⟨d, t, _, ht, _⟩ := value_cases hvalue
  · -- Nothing but blanks stands behind the number, and no blank does.
    obtain ⟨n, hn⟩ := exists_drop_of_scalar hscalar
    have hgap' : ∀ a ∈ rest, isGap a = false := by
      intro a ha
      rw [show rest = cs.drop n from congrArg Cursor.rest hn] at ha
      exact hgap a (List.mem_of_mem_drop ha)
    rw [hskip rest hgap'] at hrest
    exact ⟨position, by rw [hscalar, show rest = [] from hrest]⟩
  · cases hs
  · cases hjs
  · cases ht

/-! ## Faithful values -/

/-- The null value is read back. -/
theorem reads_null (depth level : Nat) : Reads depth (Json.null.encodeAt level).toList .null := by
  have hread : scalar ⟨(Json.null.encodeAt level).toList, 0⟩ = .ok (.null, ⟨[], 4⟩) := by
    rw [encodeAt]
    rfl
  exact reads_of_scalar hread depth

/-- The booleans are read back. -/
theorem reads_bool (b : Bool) (depth level : Nat) :
    Reads depth ((Json.bool b).encodeAt level).toList (.bool b) := by
  cases b with
  | false =>
    have hread : scalar ⟨((Json.bool false).encodeAt level).toList, 0⟩
        = .ok (.bool false, ⟨[], 5⟩) := by
      rw [encodeAt]
      rfl
    exact reads_of_scalar hread depth
  | true =>
    have hread : scalar ⟨((Json.bool true).encodeAt level).toList, 0⟩
        = .ok (.bool true, ⟨[], 4⟩) := by
      rw [encodeAt]
      rfl
    exact reads_of_scalar hread depth

/-- **A faithful value reads as itself from its text**, at every level and with whatever behind it
that may follow a value. -/
theorem reads_of_faithful {depth : Nat} {j : Json} (h : Faithful depth j) (level : Nat) :
    Reads depth (j.encodeAt level).toList j := by
  cases j with
  | null => exact reads_null depth level
  | bool b => exact reads_bool b depth level
  | int n =>
    rw [Faithful] at h
    obtain ⟨last, hread⟩ := scalar_int h 0
    rw [encodeAt]
    exact reads_of_scalar hread depth
  | float x =>
    rw [Faithful] at h
    obtain ⟨last, hread⟩ := scalar_of_doubleReadsBack h
    rw [encodeAt]
    exact reads_of_scalar hread depth
  | str s =>
    rw [Faithful] at h
    exact reads_str h depth level
  | arr js =>
    cases depth with
    | zero => exact absurd h id
    | succ depth => exact reads_arr fun j hj => reads_of_faithful (h j hj) (level + 1)
  | obj ms =>
    cases depth with
    | zero => exact absurd h id
    | succ depth =>
      obtain ⟨hkeys, hms⟩ := h
      exact reads_obj hkeys fun m hm =>
        ⟨(hms m hm).1, reads_of_faithful (hms m hm).2 (level + 1)⟩
termination_by depth

/-- **Decoding undoes encoding** for faithful values, also with a line break at the end. -/
theorem decodeChars_encode {j : Json} (h : Faithful maxDepth j) {rest : List Char}
    (hstops : Stops rest) (hgaps : ∀ c ∈ rest, isGap c = true) :
    decodeChars (j.encode.toList ++ rest) = .ok j := by
  have hreads : Reads maxDepth j.encode.toList j := reads_of_faithful h 0
  obtain ⟨a, cs, htext, hstart⟩ := hreads.head
  have hgap := isGap_of_startsValue hstart
  have hfuel : j.encode.toList.length ≤ 2 * (j.encode.toList ++ rest).length + 2 := by
    rw [List.length_append]
    omega
  obtain ⟨last, hvalue⟩ := hreads.value _ rest 0 hfuel hstops
  have hskip : Cursor.skipGaps ⟨j.encode.toList ++ rest, 0⟩ = ⟨j.encode.toList ++ rest, 0⟩ := by
    rw [htext]
    exact skipGaps_of_head hgap (cs ++ rest) 0
  -- Behind the value there are only blanks, as the reader demands.
  have hend : (Cursor.skipGaps ⟨rest, last⟩).rest = [] := by
    have htaken : rest.takeWhile isGap = rest := List.takeWhile_eq_self_iff.mpr hgaps
    rw [Cursor.skipGaps, htaken, Cursor.skip, List.drop_eq_nil_of_le (Nat.le_refl _)]
  unfold decodeChars
  split
  · rename_i hbom
    rw [htext] at hbom
    exact absurd (List.cons.inj hbom).1 (ne_of_startsValue hstart rfl)
  · simp only [hskip, hvalue, hend]
    rfl

/-! ## What was read is faithful -/

mutual

/-- The doubles in a value. -/
def doubles : Json → List Float
  | .null => []
  | .bool _ => []
  | .int _ => []
  | .float x => [x]
  | .str _ => []
  | .arr js => doublesOfItems js
  | .obj ms => doublesOfMembers ms

/-- The doubles in the items of an array. -/
def doublesOfItems : List Json → List Float
  | [] => []
  | j :: js => j.doubles ++ doublesOfItems js

/-- The doubles in the members of an object. -/
def doublesOfMembers : List (RawText × Json) → List Float
  | [] => []
  | (_, j) :: ms => j.doubles ++ doublesOfMembers ms

end

/-- A double of an item is one of the items' doubles. -/
theorem mem_doublesOfItems {js : List Json} {j : Json} (hj : j ∈ js) {x : Float}
    (hx : x ∈ j.doubles) : x ∈ doublesOfItems js := by
  induction js with
  | nil => cases hj
  | cons i js ih =>
    rw [doublesOfItems, List.mem_append]
    rcases List.mem_cons.mp hj with rfl | hj
    · exact .inl hx
    · exact .inr (ih hj)

/-- A double of a member's value is one of the members' doubles. -/
theorem mem_doublesOfMembers {ms : List (RawText × Json)} {m : RawText × Json} (hm : m ∈ ms)
    {x : Float} (hx : x ∈ m.2.doubles) : x ∈ doublesOfMembers ms := by
  induction ms with
  | nil => cases hm
  | cons n ms ih =>
    rw [doublesOfMembers, List.mem_append]
    rcases List.mem_cons.mp hm with rfl | hm
    · exact .inl hx
    · exact .inr (ih hm)

mutual

/-- The doubles in a faithful value read back. -/
theorem doubleReadsBack_of_faithful {depth : Nat} {j : Json} (h : Faithful depth j) :
    ∀ x ∈ j.doubles, DoubleReadsBack x := by
  intro x hx
  cases j with
  | null | bool | int | str =>
    rw [doubles] at hx
    cases hx
  | float y =>
    rw [doubles] at hx
    rw [Faithful] at h
    rwa [List.mem_singleton.mp hx]
  | arr js =>
    rw [doubles] at hx
    cases depth with
    | zero => cases h
    | succ depth => exact doubleReadsBack_of_items h x hx
  | obj ms =>
    rw [doubles] at hx
    cases depth with
    | zero => cases h
    | succ depth => exact doubleReadsBack_of_members (fun m hm => (h.2 m hm).2) x hx

/-- The doubles of faithful items read back. -/
theorem doubleReadsBack_of_items {depth : Nat} {js : List Json} (h : ∀ j ∈ js, Faithful depth j) :
    ∀ x ∈ doublesOfItems js, DoubleReadsBack x := by
  intro x hx
  cases js with
  | nil =>
    rw [doublesOfItems] at hx
    cases hx
  | cons j js =>
    rw [doublesOfItems, List.mem_append] at hx
    obtain ⟨hj, hjs⟩ := List.forall_mem_cons.mp h
    rcases hx with hx | hx
    · exact doubleReadsBack_of_faithful hj x hx
    · exact doubleReadsBack_of_items hjs x hx

/-- The doubles of faithful members read back. -/
theorem doubleReadsBack_of_members {depth : Nat} {ms : List (RawText × Json)}
    (h : ∀ m ∈ ms, Faithful depth m.2) : ∀ x ∈ doublesOfMembers ms, DoubleReadsBack x := by
  intro x hx
  cases ms with
  | nil =>
    rw [doublesOfMembers] at hx
    cases hx
  | cons m ms =>
    rw [doublesOfMembers, List.mem_append] at hx
    obtain ⟨hm, hms⟩ := List.forall_mem_cons.mp h
    rcases hx with hx | hx
    · exact doubleReadsBack_of_faithful hm x hx
    · exact doubleReadsBack_of_members hms x hx

end

/-- A value is faithful as far as its doubles are. -/
def FaithfulIfDoubles (depth : Nat) (j : Json) : Prop :=
  (∀ x ∈ j.doubles, DoubleReadsBack x) → Faithful depth j

/-- One more item was read: what the reader of items gives consists of what it had and of what it
reads. -/
theorem faithful_of_items {fuel depth : Nat}
    (hvalue : ∀ fuel' < fuel, ∀ {c c' : Cursor} {j : Json},
      value fuel' depth c = .ok (j, c') → FaithfulIfDoubles depth j)
    {read js : List Json} {c c' : Cursor} (h : items fuel depth read c = .ok (js, c')) :
    ∀ j ∈ js, j ∈ read ∨ FaithfulIfDoubles depth j := by
  induction fuel generalizing read c with
  | zero =>
    rw [items] at h
    cases h
  | succ fuel ih =>
    rw [items] at h
    split at h
    · cases h
    rename_i j c₁ hread
    have hj := hvalue fuel (Nat.lt_succ_self _) hread
    simp only at h
    split at h
    · cases h
      intro i hi
      -- The items are kept in reverse while they are read.
      rcases List.mem_cons.mp (List.mem_reverse.mp hi) with rfl | hi
      · exact .inr hj
      · exact .inl hi
    · intro i hi
      have hrest := ih (fun n hn => hvalue n (Nat.lt_succ_of_lt hn)) h i hi
      rcases hrest with hrest | hrest
      · rcases List.mem_cons.mp hrest with rfl | hrest
        · exact .inr hj
        · exact .inl hrest
      · exact .inr hrest
    · cases h

/-- What the reader of members gives consists of what it had and of what it reads, with keys that stay
different. -/
theorem faithful_of_members {fuel depth : Nat}
    (hvalue : ∀ fuel' < fuel, ∀ {c c' : Cursor} {j : Json},
      value fuel' depth c = .ok (j, c') → FaithfulIfDoubles depth j)
    {read t : Table RawText Json} {c c' : Cursor} (h : members fuel depth read c = .ok (t, c'))
    (hkeys : read.keys.Nodup) :
    t.keys.Nodup ∧ ∀ m ∈ t.toList,
      m ∈ read.toList ∨ m.1.Joined ∧ FaithfulIfDoubles depth m.2 := by
  induction fuel generalizing read c with
  | zero =>
    rw [members] at h
    cases h
  | succ fuel ih =>
    rw [members] at h
    split at h
    rotate_left
    · cases h
    split at h
    · cases h
    rename_i name c₁ hname
    simp only at h
    split at h
    rotate_left
    · cases h
    split at h
    · cases h
    rename_i j c₂ hread
    have hj := hvalue fuel (Nat.lt_succ_self _) hread
    -- A member that is read again takes the place of the first one.
    have hput := Table.nodup_keys_put hkeys name j
    split at h
    · cases h
      refine ⟨hput, ?_⟩
      intro m hm
      rcases Table.mem_put hm with rfl | hm
      · exact .inr ⟨joined_of_string hname, hj⟩
      · exact .inl hm
    · obtain ⟨hnodup, hms⟩ := ih (fun n hn => hvalue n (Nat.lt_succ_of_lt hn)) h hput
      refine ⟨hnodup, ?_⟩
      intro m hm
      rcases hms m hm with hm | hm
      · rcases Table.mem_put hm with rfl | hm
        · exact .inr ⟨joined_of_string hname, hj⟩
        · exact .inl hm
      · exact .inr hm
    · cases h

/-- Whatever the reader takes as a value is faithful, as far as its doubles are. -/
theorem faithful_of_value {fuel depth : Nat} {c c' : Cursor} {j : Json}
    (h : value fuel depth c = .ok (j, c')) : FaithfulIfDoubles depth j := by
  -- Items and members are read with less fuel, so induction is over all smaller amounts.
  induction fuel using Nat.strongRecOn generalizing depth c c' j with
  | ind fuel ih =>
    cases fuel with
    | zero =>
      rw [value] at h
      cases h
    | succ fuel =>
      intro hdoubles
      obtain hscalar | ⟨s, rfl, hs⟩ | ⟨d, js, rfl, rfl, hjs⟩ | ⟨d, t, rfl, rfl, ht⟩ := value_cases h
      · obtain rfl | ⟨b, rfl⟩ | ⟨x, rfl⟩ | ⟨n, rfl, hn⟩ := isScalar_of_scalar hscalar
        · rw [Faithful]
          trivial
        · rw [Faithful]
          trivial
        · rw [Faithful]
          exact hdoubles x (by rw [doubles]; exact List.mem_singleton_self x)
        · rw [Faithful]
          exact hn
      · rw [Faithful]
        exact joined_of_string hs
      · rw [doubles] at hdoubles
        rcases hjs with rfl | ⟨start, hitems⟩
        · exact fun j hj => absurd hj List.not_mem_nil
        · have hall := faithful_of_items
            (fun n hn => ih n (Nat.lt_succ_of_lt hn)) hitems
          intro j hj
          rcases hall j hj with hnil | hfaithful
          · cases hnil
          · exact hfaithful fun x hx => hdoubles x (mem_doublesOfItems hj hx)
      · rw [ofTable, doubles] at hdoubles
        rcases ht with rfl | ⟨start, hmembers⟩
        · exact ⟨.nil, fun m hm => absurd hm List.not_mem_nil⟩
        · obtain ⟨hnodup, hall⟩ := faithful_of_members
            (fun n hn => ih n (Nat.lt_succ_of_lt hn)) hmembers .nil
          refine ⟨hnodup, ?_⟩
          intro m hm
          rcases hall m hm with hnil | ⟨hjoined, hfaithful⟩
          · cases hnil
          · exact ⟨hjoined, hfaithful fun x hx => hdoubles x (mem_doublesOfMembers hm hx)⟩

/-- **What was read is faithful** as far as its doubles are. -/
theorem faithful_of_decodeChars {cs : List Char} {j : Json} (h : decodeChars cs = .ok j)
    (hdoubles : ∀ x ∈ j.doubles, DoubleReadsBack x) : Faithful maxDepth j := by
  obtain ⟨c, hvalue, _⟩ := exists_value_of_decodeChars h
  exact faithful_of_value hvalue hdoubles

end Json

end CommandShell

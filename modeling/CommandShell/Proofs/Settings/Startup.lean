import CommandShell.Proofs.Json.Limits
import CommandShell.Proofs.Settings.Standing

/-! # Loading whatever the settings file holds

A settings file may hold any bytes. Loading it gives the settings that they say, if they are accepted. Bytes
that are not accepted are ignored with a warning, if only the reader finds what is wrong with them. On others
it gives up (`SettingsFile.GivesUp`): they are no UTF-8, or their text exceeds a limit of the reader. Then
loading ends with a fault, and nothing else of the shell is reached (`SettingsFile.loads_iff_not_givesUp`). -/

namespace CommandShell

namespace SettingsFile

variable {w : World} {data : List UInt8} {c : Settings}

/-- Bytes mean a value: they are the UTF-8 text of JSON. -/
def Means (data : List UInt8) (j : Json) : Prop :=
  ∃ cs, Utf8.decode data = .ok cs ∧ Json.decodeChars (unixLines cs) = .ok j

/-- Bytes are accepted as settings: they mean a value that passes the check. -/
def Accepts (data : List UInt8) (c : Settings) : Prop :=
  ∃ j, Means data j ∧ Settings.ofJson j = .ok c

/-- The reader gives up on bytes that are no UTF-8, or that are the text of something beyond its limits. -/
def GivesUp (data : List UInt8) : Prop :=
  ∀ cs, Utf8.decode data = .ok cs → ∃ e, Json.decodeChars (unixLines cs) = .error e ∧ e.GivesUp

/-! ## What bytes mean -/

/-- Bytes mean a value, or a mistake, or the reader gives up on them. -/
theorem parse_cases (data : List UInt8) :
    (∃ j, parse data = .ok (.ok j) ∧ Means data j) ∨
      (∃ mistake, parse data = .ok (.error mistake) ∧ (∀ j, ¬Means data j) ∧ ¬GivesUp data) ∨
        ∃ f, parse data = .error f ∧ GivesUp data := by
  unfold parse
  cases hdecode : Utf8.decode data with
  | error f =>
    refine .inr (.inr ⟨.undecodable f, rfl, fun cs hcs => ?_⟩)
    rw [hdecode] at hcs
    cases hcs
  | ok cs =>
    have hgives {e : Json.Fault} (he : Json.decodeChars (unixLines cs) = .error e) (hup : e.GivesUp) :
        GivesUp data := by
      intro cs' hcs'
      rw [hdecode] at hcs'
      cases hcs'
      exact ⟨e, he, hup⟩
    dsimp only
    -- Among the errors of reading only a malformed text is reported; on the others the reader gives up.
    cases hread : Json.decodeChars (unixLines cs) with
    | ok j => exact .inl ⟨j, rfl, cs, hdecode, hread⟩
    | error e =>
      cases e with
      | malformed m position =>
        refine .inr (.inl ⟨_, rfl, fun j hmeans => ?_, fun hup => ?_⟩)
        · obtain ⟨cs', hcs', hj⟩ := hmeans
          rw [hdecode] at hcs'
          cases hcs'
          rw [hread] at hj
          cases hj
        · obtain ⟨e, he, hup⟩ := hup cs hdecode
          rw [hread] at he
          cases he
          exact hup
      | oversized n => exact .inr (.inr ⟨_, rfl, hgives hread trivial⟩)
      | nested => exact .inr (.inr ⟨_, rfl, hgives hread trivial⟩)

/-- Bytes mean one value at most. -/
theorem Means.unique {j j' : Json} (h : Means data j) (h' : Means data j') : j = j' := by
  obtain ⟨cs, hcs, hj⟩ := h
  obtain ⟨cs', hcs', hj'⟩ := h'
  rw [hcs] at hcs'
  cases hcs'
  rw [hj] at hj'
  cases hj'
  rfl

/-- The reader does not give up on bytes that mean a value. -/
theorem Means.not_givesUp {j : Json} (h : Means data j) : ¬GivesUp data := by
  obtain ⟨cs, hcs, hj⟩ := h
  intro hup
  obtain ⟨e, he, -⟩ := hup cs hcs
  rw [hj] at he
  cases he

/-- **The reader does not give up on a moderate text.** -/
theorem not_givesUp_of_moderate {cs : List Char} (hcs : Utf8.decode data = .ok cs)
    (h : Json.Moderate (unixLines cs)) : ¬GivesUp data := by
  intro hup
  obtain ⟨e, he, hup⟩ := hup cs hcs
  exact Json.not_givesUp_of_moderate h he hup

/-! ## Loading -/

/-- Accepted bytes are loaded, and nothing changes. -/
theorem Reads.run_load_of_accepts (h : Reads w data) (hc : Accepts data c) (create : Bool) :
    (load create).run w = .ok c w := by
  obtain ⟨j, hmeans, hj⟩ := hc
  obtain ⟨j', hparse, hmeans'⟩ | ⟨_, _, hno, _⟩ | ⟨_, _, hup⟩ := parse_cases data
  · cases hmeans.unique hmeans'
    exact h.run_load_ok (h.run_readRaw hparse) hj create
  · exact absurd hmeans (hno j)
  · exact absurd hup hmeans.not_givesUp

/-- Other bytes are ignored with a warning, unless the reader gives up on them. -/
theorem Reads.run_load_of_not_accepts (h : Reads w data) (hno : ∀ c, ¬Accepts data c)
    (hup : ¬GivesUp data) (create : Bool) :
    ∃ message, (load create).run w = .ok .empty (w.emitted (w.reports .warning .config message)) := by
  obtain ⟨j, hparse, hmeans⟩ | ⟨mistake, hparse, -, -⟩ | ⟨_, _, hup'⟩ := parse_cases data
  · cases hj : Settings.ofJson j with
    | ok c => exact absurd ⟨j, hmeans, hj⟩ (hno c)
    | error r => exact ⟨_, h.run_load_rejected (h.run_readRaw hparse) hj create⟩
  · -- A malformed file counts as an object without members, which is accepted.
    exact ⟨_, h.run_load_ok (h.run_readRaw_malformed hparse) rfl create⟩
  · exact absurd hup' hup

/-- If the reader gives up on the bytes of the file, loading ends with a fault. -/
theorem Reads.run_load_of_givesUp (h : Reads w data) (hup : GivesUp data) (create : Bool) :
    ∃ f, (load create).run w = .error f w := by
  obtain ⟨j, _, hmeans⟩ | ⟨_, _, _, hnot⟩ | ⟨f, hparse, _⟩ := parse_cases data
  · exact absurd hup hmeans.not_givesUp
  · exact absurd hup hnot
  · exact ⟨f, h.run_load_error (h.run_readRaw_error hparse) create⟩

/-- **Loading whatever the file holds.** It gives the settings that the bytes say, if they are accepted, and
else none, after a warning; but this only if the reader does not give up on the bytes, and otherwise it ends
with a fault. The reader does not give up on a UTF-8 text with few openings and short numbers. -/
theorem loads_iff_not_givesUp (h : Reads w data) (create : Bool) :
    ((∃ c w', (load create).run w = .ok c w') ↔ ¬GivesUp data) ∧
    (∀ c, Accepts data c → (load create).run w = .ok c w) ∧
    ((∀ c, ¬Accepts data c) → ¬GivesUp data → ∃ message,
      (load create).run w = .ok .empty (w.emitted (w.reports .warning .config message))) ∧
    (GivesUp data → ∃ f, (load create).run w = .error f w) ∧
    ∀ cs, Utf8.decode data = .ok cs → Json.Moderate (unixLines cs) → ¬GivesUp data := by
  refine ⟨⟨?_, fun hup => ?_⟩, fun c hc => h.run_load_of_accepts hc create,
    fun hno hup => h.run_load_of_not_accepts hno hup create,
    fun hup => h.run_load_of_givesUp hup create, fun cs hcs => not_givesUp_of_moderate hcs⟩
  · rintro ⟨c, w', hload⟩ hup
    obtain ⟨f, hfault⟩ := h.run_load_of_givesUp hup create
    rw [hload] at hfault
    cases hfault
  · by_cases hc : ∃ c, Accepts data c
    · obtain ⟨c, hc⟩ := hc
      exact ⟨c, w, h.run_load_of_accepts hc create⟩
    · obtain ⟨message, hload⟩ :=
        h.run_load_of_not_accepts (fun c hc' => hc ⟨c, hc'⟩) hup create
      exact ⟨_, _, hload⟩

/-! ## A file with a flag, and a file of a single byte -/

/-- A world whose settings file holds these bytes. -/
def worldOf (data : List UInt8) : World :=
  { (default : World) with home := "/h", files := Manager.smallFiles data }

/-- The file of the sample reads as the given bytes. -/
theorem reads_worldOf (data : List UInt8) : Reads (worldOf data) data := by
  have hname : Files.fileName (pathOf "/h").text = .ok "/h/.cmdsh/config.json" := rfl
  exact ⟨"/h/.cmdsh/config.json", (["h", ".cmdsh", "config.json"], .bytes data), hname,
    Manager.read_smallFiles data _, rfl⟩

/-- The text of an object with a flag. -/
def flagText : List Char := "\x7b\"simple\": true\x7d\n".toList

/-- The flag is loaded. -/
theorem load_flag :
    Reads (worldOf (Utf8.encode flagText)) (Utf8.encode flagText) ∧
      (load true).run (worldOf (Utf8.encode flagText))
        = .ok { Settings.empty with simple := some true } (worldOf (Utf8.encode flagText)) := by
  have hreads := reads_worldOf (Utf8.encode flagText)
  refine ⟨hreads, (loads_iff_not_givesUp hreads true).2.1 _ ?_⟩
  exact ⟨.obj [("simple", .bool true)], ⟨flagText, Utf8.decode_encode _, rfl⟩, rfl⟩

/-- A file that holds a single byte which starts no character is not ignored. -/
theorem load_byte :
    Reads (worldOf [0xFF]) [0xFF] ∧
      (load true).run (worldOf [0xFF])
        = .error (.undecodable ⟨.start, 0, [0xFF]⟩) (worldOf [0xFF]) ∧
      ¬∃ c w', (load true).run (worldOf [0xFF]) = .ok c w' := by
  have hreads := reads_worldOf [0xFF]
  have hpieces : Utf8.pieces [0xFF] = [.junk .start 1] := by
    rw [Utf8.pieces]
    exact congrArg (_ :: ·) Utf8.pieces.eq_1
  have hparse : parse [0xFF] = .error (.undecodable ⟨.start, 0, [0xFF]⟩) := by
    rw [parse, Utf8.decode, hpieces]
    rfl
  have hload := hreads.run_load_error (hreads.run_readRaw_error hparse) true
  refine ⟨hreads, hload, ?_⟩
  rintro ⟨c, w', hok⟩
  rw [hload] at hok
  cases hok

end SettingsFile

end CommandShell

import CommandShell.Proofs.Json.ReadBack
import CommandShell.Settings.Basic

/-! # Checked settings

Settings are accepted field by field: `Setting.check` is what the check asks of one field, and the
members of an object are accepted as settings exactly if every field is (`ofMembers_eq_ok_iff`). What
was accepted is accepted again when it is written down (`check_members`), so settings can be merged into
what a file holds without any field changing but those that are given (`ofMembers_merge`). -/

namespace CommandShell

namespace Setting

/-- What the check makes of the value of one setting, which may be absent. -/
def check (s : Setting) (j : Option Json) : Checked (Option Value) :=
  match s.default "" with
  | .text _ => (checkString s.key j).map (Option.map .text)
  | .flag _ => (Settings.checkFlag s.key j).map (Option.map .flag)

/-- A setting that is not given is accepted as such. -/
@[simp] theorem check_none (s : Setting) : s.check none = .ok none := by cases s <;> rfl

/-- Keys tell settings apart. -/
theorem key_inj {s s' : Setting} : s.key = s'.key ↔ s = s' := by
  constructor
  · intro h
    have hs := ofKey?_key s
    rw [h, ofKey?_key] at hs
    exact (Option.some.inj hs).symm
  · rintro rfl
    rfl

/-- Different settings have different keys. -/
theorem ofString_key_inj {s s' : Setting} :
    RawText.ofString s.key = RawText.ofString s'.key ↔ s = s' := by
  rw [RawText.ofString_inj, key_inj]

/-- The setting that is found by a key has this key. -/
theorem ofKey?_eq_some {k : String} {s : Setting} (h : ofKey? k = some s) : s.key = k := by
  have htest := List.find?_some h
  exact eq_of_beq htest

/-- A value other than null that is accepted as a text is given. -/
theorem isSome_of_checkString {field : String} {j : Json} (hj : j ≠ .null) {v : Option RawText}
    (h : checkString field (some j) = .ok v) : v = none → False := by
  rintro rfl
  unfold checkString at h
  split at h
  · rename_i heq
    cases heq
  · rename_i heq
    exact hj (Option.some.inj heq)
  · cases h
  · cases h

/-- A value other than null that is accepted as a flag is given. -/
theorem isSome_of_checkFlag {field : String} {j : Json} (hj : j ≠ .null) {v : Option Bool}
    (h : Settings.checkFlag field (some j) = .ok v) : v = none → False := by
  rintro rfl
  -- Numbers are accepted as one of the two flags, or not at all.
  have hint (input : Json) (n : Int) : Settings.flagOfInt field input n ≠ .ok none := by
    unfold Settings.flagOfInt
    split
    · exact fun h => (by cases h)
    · split
      · exact fun h => (by cases h)
      · exact fun h => (by cases h)
  unfold Settings.checkFlag at h
  split at h
  · rename_i heq
    cases heq
  · rename_i heq
    exact hj (Option.some.inj heq)
  · cases h
  · split at h
    · cases h
    · split at h
      · cases h
      · cases h
  · split at h
    · exact hint _ _ h
    · cases h
  · split at h
    · exact hint _ _ h
    · cases h
  · cases h

/-- A value other than null that is accepted is a value of the setting. -/
theorem isSome_of_check {s : Setting} {j : Json} (hj : j ≠ .null) {v : Option Value}
    (h : s.check (some j) = .ok v) : ∃ value, v = some value := by
  unfold check at h
  split at h
  · cases hcheck : checkString s.key (some j) with
    | error e =>
      rw [hcheck] at h
      cases h
    | ok w =>
      rw [hcheck] at h
      cases w with
      | none => exact (isSome_of_checkString hj hcheck rfl).elim
      | some text =>
        cases h
        exact ⟨_, rfl⟩
  · cases hcheck : Settings.checkFlag s.key (some j) with
    | error e =>
      rw [hcheck] at h
      cases h
    | ok w =>
      rw [hcheck] at h
      cases w with
      | none => exact (isSome_of_checkFlag hj hcheck rfl).elim
      | some flag =>
        cases h
        exact ⟨_, rfl⟩

/-- Only a string is accepted as a text. -/
theorem eq_str_of_check {s : Setting} {j : Option Json} {x : RawText}
    (h : s.check j = .ok (some (.text x))) : j = some (.str x) := by
  unfold check at h
  split at h
  · cases hcheck : checkString s.key j with
    | error e =>
      rw [hcheck] at h
      cases h
    | ok v =>
      rw [hcheck] at h
      unfold checkString at hcheck
      split at hcheck
      · cases hcheck
        cases h
      · cases hcheck
        cases h
      · cases hcheck
        cases h
        rfl
      · cases hcheck
  · -- A flag is never a text.
    cases hcheck : Settings.checkFlag s.key j with
    | error e =>
      rw [hcheck] at h
      cases h
    | ok v =>
      rw [hcheck] at h
      cases v with
      | none => cases h
      | some b => cases h

end Setting

namespace Settings

variable {t : Table RawText Json} {c : Settings}

/-- A check is known from its value, where different values are told apart. -/
theorem eq_ok_of_map {α : Type} {f : α → Setting.Value} (hf : ∀ a b, f a = f b → a = b)
    {r : Checked (Option α)} {v : Option α} (h : r.map (Option.map f) = .ok (v.map f)) :
    r = .ok v := by
  cases r with
  | error e => cases h
  | ok w =>
    have hw : w.map f = v.map f := Except.ok.inj h
    cases w with
    | none =>
      cases v with
      | none => rfl
      | some b => cases hw
    | some a =>
      cases v with
      | none => cases hw
      | some b => rw [hf a b (Option.some.inj hw)]

/-- **Settings are accepted field by field.** -/
theorem ofMembers_eq_ok_iff :
    ofMembers t = .ok c ↔ ∀ s : Setting, s.check (t.get? s.key) = .ok (c.get? s) := by
  constructor
  · intro h s
    unfold ofMembers at h
    simp only at h
    split at h
    · rename_i h₁ h₂ h₃ h₄ h₅ h₆ h₇
      cases h
      cases s
      · exact congrArg (Except.map (Option.map Setting.Value.text)) h₁
      · exact congrArg (Except.map (Option.map Setting.Value.text)) h₂
      · exact congrArg (Except.map (Option.map Setting.Value.text)) h₃
      · exact congrArg (Except.map (Option.map Setting.Value.flag)) h₄
      · exact congrArg (Except.map (Option.map Setting.Value.text)) h₅
      · exact congrArg (Except.map (Option.map Setting.Value.flag)) h₆
      · exact congrArg (Except.map (Option.map Setting.Value.text)) h₇
    · cases h
  · intro h
    -- Each field is what its own check gives, as values of a setting tell texts and flags apart.
    have htext (a b : RawText) (hab : Setting.Value.text a = .text b) : a = b := by
      cases hab
      rfl
    have hflag (a b : Bool) (hab : Setting.Value.flag a = .flag b) : a = b := by
      cases hab
      rfl
    have h₁ : checkString "commands_dir" _ = .ok c.commandsDir := eq_ok_of_map htext (h .commandsDir)
    have h₂ : checkString "probe_command" _ = .ok c.probeCommand :=
      eq_ok_of_map htext (h .probeCommand)
    have h₃ : checkString "history_file" _ = .ok c.historyFile := eq_ok_of_map htext (h .historyFile)
    have h₄ : checkFlag "incognito" _ = .ok c.incognito := eq_ok_of_map hflag (h .incognito)
    have h₅ : checkString "prompt" _ = .ok c.prompt := eq_ok_of_map htext (h .prompt)
    have h₆ : checkFlag "simple" _ = .ok c.simple := eq_ok_of_map hflag (h .simple)
    have h₇ : checkString "log_level" _ = .ok c.logLevel := eq_ok_of_map htext (h .logLevel)
    unfold ofMembers
    simp only [Setting.key] at h₁ h₂ h₃ h₄ h₅ h₆ h₇ ⊢
    rw [h₁, h₂, h₃, h₄, h₅, h₆, h₇]

/-- Members are accepted as settings if each of them is accepted for its own. -/
theorem exists_ofMembers (h : ∀ s : Setting, ∃ v, s.check (t.get? s.key) = .ok v) :
    ∃ c, ofMembers t = .ok c := by
  have hok {α : Type} {f : α → Setting.Value} {r : Checked (Option α)}
      (h : ∃ v, r.map (Option.map f) = .ok v) : ∃ a, r = .ok a := by
    obtain ⟨v, hv⟩ := h
    cases r with
    | error e => cases hv
    | ok a => exact ⟨a, rfl⟩
  obtain ⟨a₁, h₁⟩ := hok (h .commandsDir)
  obtain ⟨a₂, h₂⟩ := hok (h .probeCommand)
  obtain ⟨a₃, h₃⟩ := hok (h .historyFile)
  obtain ⟨a₄, h₄⟩ := hok (h .incognito)
  obtain ⟨a₅, h₅⟩ := hok (h .prompt)
  obtain ⟨a₆, h₆⟩ := hok (h .simple)
  obtain ⟨a₇, h₇⟩ := hok (h .logLevel)
  unfold ofMembers
  simp only [Setting.key] at h₁ h₂ h₃ h₄ h₅ h₆ h₇ ⊢
  rw [h₁, h₂, h₃, h₄, h₅, h₆, h₇]
  exact ⟨_, rfl⟩

/-- Members of which the check makes certain values give settings with these values. -/
theorem exists_ofMembers_of_check {values : Setting → Option Setting.Value}
    (h : ∀ s : Setting, s.check (t.get? s.key) = .ok (values s)) :
    ∃ c, ofMembers t = .ok c ∧ ∀ s, c.get? s = values s := by
  obtain ⟨c, hc⟩ := exists_ofMembers fun s => ⟨_, h s⟩
  refine ⟨c, hc, fun s => ?_⟩
  have hs := ofMembers_eq_ok_iff.mp hc s
  rw [h s] at hs
  exact (Except.ok.inj hs).symm

/-- Among the members of settings each setting stands with its value, or with null. -/
theorem get?_members (c : Settings) (s : Setting) :
    c.members.get? s.key = some (valueJson (c.get? s)) := by
  cases s <;> rfl

/-- What was accepted is accepted again when it is written down. -/
theorem check_members (c : Settings) (s : Setting) :
    s.check (some (valueJson (c.get? s))) = .ok (c.get? s) := by
  obtain ⟨c₁, c₂, c₃, c₄, c₅, c₆, c₇⟩ := c
  cases s
  · cases c₁ <;> rfl
  · cases c₂ <;> rfl
  · cases c₃ <;> rfl
  · cases c₄ <;> rfl
  · cases c₅ <;> rfl
  · cases c₆ <;> rfl
  · cases c₇ <;> rfl

/-! ## Changing settings -/

/-- One setting put among the members of settings is all that the check looks at anew. -/
theorem check_members_put (c : Settings) (s : Setting) (j : Json) (s' : Setting) :
    s'.check ((c.members.put s.key j).get? s'.key)
      = if s = s' then s'.check (some j) else .ok (c.get? s') := by
  by_cases hs : s = s'
  · rw [if_pos hs, hs, Table.get?_put_self]
  · have hkey : ¬RawText.ofString s.key = RawText.ofString s'.key :=
      fun h => hs (Setting.ofString_key_inj.mp h)
    rw [if_neg hs, Table.get?_put, if_neg hkey, get?_members, check_members]

/-- A value that its setting accepts can be put among the members of settings, and changes only this
one. -/
theorem exists_ofMembers_members_put (c : Settings) {s : Setting} {j : Json}
    {v : Option Setting.Value} (h : s.check (some j) = .ok v) :
    ∃ c', ofMembers (c.members.put s.key j) = .ok c' ∧
      ∀ s', c'.get? s' = if s = s' then v else c.get? s' := by
  apply exists_ofMembers_of_check
  intro s'
  rw [check_members_put]
  by_cases hs : s = s'
  · rw [if_pos hs, if_pos hs, ← hs, h]
  · rw [if_neg hs, if_neg hs]

/-- A value is put among the members of settings if its setting accepts it, or else it is refused. -/
theorem ofMembers_members_put (c : Settings) (s : Setting) (j : Json) :
    (∃ r, ofMembers (c.members.put s.key j) = .error r) ∨
      ∃ v c', s.check (some j) = .ok v ∧ ofMembers (c.members.put s.key j) = .ok c' ∧
        ∀ s', c'.get? s' = if s = s' then v else c.get? s' := by
  cases hput : ofMembers (c.members.put s.key j) with
  | error r => exact .inl ⟨r, rfl⟩
  | ok c' =>
    have hself := ofMembers_eq_ok_iff.mp hput s
    rw [check_members_put, if_pos rfl] at hself
    obtain ⟨d, hd, hget⟩ := exists_ofMembers_members_put c hself
    rw [hput] at hd
    cases hd
    exact .inr ⟨_, c', hself, rfl, hget⟩

/-- Without one member settings are what they were, but for that setting. -/
theorem ofMembers_remove (h : ofMembers t = .ok c) (s : Setting) :
    ∃ c', ofMembers (t.remove s.key) = .ok c' ∧
      ∀ s', c'.get? s' = if s = s' then none else c.get? s' := by
  have hall := ofMembers_eq_ok_iff.mp h
  apply exists_ofMembers_of_check
  intro s'
  rw [Table.get?_remove]
  by_cases hs : s = s'
  · rw [if_pos (Setting.ofString_key_inj.mpr hs), if_pos hs, Setting.check_none]
  · rw [if_neg fun h => hs (Setting.ofString_key_inj.mp h), if_neg hs, hall s']

/-! ## Merging settings into a file -/

/-- The members of a file with the given settings put among them. -/
def merge (c : Settings) (t : Table RawText Json) : Table RawText Json :=
  c.givenMembers.foldl (fun t (k, v) => t.put k v) t

/-- In a merged object a setting has the value that is given, or else the one that the object had. -/
theorem get?_merge (c : Settings) (t : Table RawText Json) (s : Setting) :
    (c.merge t).get? s.key = match c.get? s with
      | some v => some v.toJson
      | none => t.get? s.key := by
  -- The given settings are put one after the other; where the last of them put the key counts.
  have hgo : ∀ (l : List Setting) (t : Table RawText Json),
      ((l.filterMap fun s => (c.get? s).map fun v => (RawText.ofString s.key, v.toJson)).foldl
        (fun t (k, v) => t.put k v) t).get? s.key
        = match c.get? s with
          | some v => if s ∈ l then some v.toJson else t.get? s.key
          | none => t.get? s.key := by
    intro l
    induction l with
    | nil =>
      intro t
      cases c.get? s <;> rfl
    | cons s' l ih =>
      intro t
      cases hs' : c.get? s' with
      | none =>
        rw [List.filterMap_cons_none (by rw [hs']; rfl), ih t]
        cases hs : c.get? s with
        | none => rfl
        | some v =>
          have hne : s ≠ s' := by
            rintro rfl
            rw [hs] at hs'
            cases hs'
          simp only [List.mem_cons, hne, false_or]
      | some v' =>
        rw [List.filterMap_cons_some (by rw [hs']; rfl), List.foldl_cons, ih]
        by_cases heq : s' = s
        · subst heq
          simp only [hs', List.mem_cons, true_or, if_true, Table.get?_put_self]
          split <;> rfl
        · have hkey : ¬RawText.ofString s'.key = RawText.ofString s.key :=
            fun h => heq (Setting.ofString_key_inj.mp h)
          simp only [Table.get?_put, hkey, if_false, List.mem_cons, Ne.symm heq, false_or]
  have hall := hgo Setting.all t
  simp only [Setting.mem_all, if_true] at hall
  exact hall

/-- What the check makes of a setting in a file into which settings were merged. -/
theorem check_merge (c : Settings) (t : Table RawText Json) (s : Setting) :
    s.check ((c.merge t).get? s.key) = match c.get? s with
      | some v => .ok (some v)
      | none => s.check (t.get? s.key) := by
  rw [get?_merge]
  cases hs : c.get? s with
  | some v =>
    have hgiven := check_members c s
    rw [hs] at hgiven
    exact hgiven
  | none => rfl

/-- The members of a file are accepted for all the settings that are left open. -/
def Completed (c : Settings) (t : Table RawText Json) : Prop :=
  ∀ s, c.get? s = none → ∃ u, s.check (t.get? s.key) = .ok u

/-- **Merged settings are accepted** if the file was, and every setting has the value that is given for it,
or else the one that the file gave it. -/
theorem ofMembers_merge (h : ofMembers t = .ok c) (c' : Settings) :
    ∃ d, ofMembers (c'.merge t) = .ok d ∧ ∀ s, d.get? s = (c'.get? s).or (c.get? s) := by
  apply exists_ofMembers_of_check
  intro s
  rw [check_merge]
  cases c'.get? s with
  | some v => rfl
  | none => exact ofMembers_eq_ok_iff.mp h s

/-! ## Defaults -/

/-- The members of the file that is made from the defaults. -/
def defaultTable (home : String) : Table RawText Json :=
  ⟨("_comment", .str "cmdsh configuration file") :: Setting.defaultMembers home⟩

/-- The file that is made from the defaults gives every setting its default. -/
theorem ofMembers_defaultTable (home : String) :
    ∃ c, ofMembers (defaultTable home) = .ok c ∧ ∀ s, c.get? s = some (s.default home) := by
  apply exists_ofMembers_of_check
  intro s
  cases s <;> rfl

end Settings

end CommandShell

import CommandShell.Proofs.Settings.Standing

/-! # Whether a setting takes effect

A value that is set is checked beside the settings that could be loaded, but it is written beside all that
the file holds, and a manager that reads the file judges all of that at once. So a value that was accepted
holds for the managers that come after exactly if the file holds nothing else that is rejected, or if it is
the default (`takes_effect_iff`): otherwise they find the default, as before. -/

namespace CommandShell

namespace SettingsFile

variable {t : Table RawText Json} {s : Setting}

/-- All settings but this one are accepted as the file has them. -/
def OthersAccepted (t : Table RawText Json) (s : Setting) : Prop :=
  ∀ s' ≠ s, ∃ u, s'.check (t.get? s'.key) = .ok u

/-- **What a new value leaves to be loaded**: the value if all other settings are accepted, and else the
default. -/
theorem effective_loaded_set {v : Setting.Value} {c : Settings} (home : String)
    (hc : ∀ s', c.get? s' = if s = s' then some v else (loaded (some t)).get? s') :
    (OthersAccepted t s → (loaded (some (c.merge t))).effective home s = v) ∧
      (¬OthersAccepted t s → (loaded (some (c.merge t))).effective home s = s.default home) := by
  have hself : c.get? s = some v := by simp [hc]
  have hcompleted : c.Completed t ↔ OthersAccepted t s := by
    constructor
    · intro h s' hs'
      cases hloaded : (loaded (some t)).get? s' with
      | some u => exact ⟨_, check_of_get?_loaded hloaded⟩
      | none => exact h s' (by simp [hc, Ne.symm hs', hloaded])
    · intro h s' hopen
      -- The setting itself is not left open.
      apply h
      rintro rfl
      rw [hself] at hopen
      cases hopen
  rw [← hcompleted]
  constructor
  · intro h
    rw [Settings.effective, get?_loaded_merge h hself]
    rfl
  · intro h
    rw [loaded_merge_of_not_completed h, effective_empty]

end SettingsFile

namespace Manager

open SettingsFile

variable {w w' : World} {t : Table RawText Json} {m : ManagerId} {s : Setting} {j : Json}

/-- **A value that was accepted holds for new managers exactly if the file holds nothing else that is
rejected**, or if it is the default, which is what they find otherwise. -/
theorem takes_effect_iff (h : Says w t) (hnull : j ≠ .null)
    (hreads : ∀ x, j = .str x → Json.decode (Json.str x).encode = .ok (.str x))
    (hset : (set m s.key j).run w = .ok () w') :
    ∃ v, s.check (some j) = .ok (some v) ∧ ∀ m', w'.settings.get? m' = none →
      ∃ v' w'', (get m' s).run w' = .ok v' w'' ∧ (v' = v ∨ v' = s.default w.home) ∧
        (v' = v ↔ OthersAccepted t s ∨ v = s.default w.home) := by
  have hfile : Stands w (some t) := holds_of_text h
  have hstanding := Standing.of_stands hfile m
  obtain ⟨r, hr⟩ | ⟨v?, c, hv, hc, hget⟩ := Settings.ofMembers_members_put (loaded (some t)) s j
  · -- What is refused does not return.
    obtain ⟨w₁, hrun, -⟩ := hstanding.run_set_rejected hr
    rw [hrun] at hset
    cases hset
  obtain ⟨v, rfl⟩ := Setting.isSome_of_check hnull hv
  obtain ⟨w₁, hrun, hhome, hfile', -⟩ := hstanding.run_set hreads hc
  rw [hrun] at hset
  cases hset
  refine ⟨v, hv, fun m' hfresh => ?_⟩
  obtain ⟨w'', hrun', -⟩ := (Standing.of_stands hfile' m').run_get s
  rw [hfresh, hhome] at hrun'
  obtain ⟨haccepted, hdefault⟩ := effective_loaded_set w.home hget
  refine ⟨_, w'', hrun', ?_⟩
  by_cases hothers : OthersAccepted t s
  · have hv' := haccepted hothers
    exact ⟨.inl hv', iff_of_true hv' (.inl hothers)⟩
  · have hv' := hdefault hothers
    refine ⟨.inr hv', fun heq => .inr (heq.symm.trans hv'), fun h => ?_⟩
    exact hv'.trans (h.resolve_left hothers).symm

/-! ## A file with a flag that is none -/

/-- The members of a file of which the one setting is rejected. -/
def rejectedTable : Table RawText Json := ⟨[(RawText.ofString "simple", .str "maybe")]⟩

/-- A world with that file. -/
def rejectedWorld : World :=
  { (default : World) with
    home := "/h"
    files := smallFiles (Utf8.encode ((Json.ofTable rejectedTable).encode ++ "\n").toList) }

/-- The file of the sample says the object that is rejected. -/
theorem says_rejectedWorld : Says rejectedWorld rejectedTable :=
  says_of_files rfl rfl (faithful_singleton "simple" (RawText.joined_ofString "maybe"))
    fun _ hx => absurd hx List.not_mem_nil

/-- Another value for the rejected setting takes effect, as there is nothing else in the file. -/
theorem takes_effect_simple :
    Says rejectedWorld rejectedTable ∧ ∃ w', (set 0 "simple" (.str "yes")).run rejectedWorld = .ok () w' ∧
      ∀ m', w'.settings.get? m' = none → ∃ w'', (get m' .simple).run w' = .ok (.flag true) w'' := by
  have hstanding : Standing 0 "/h" rejectedWorld (some rejectedTable) none :=
    ⟨rfl, holds_of_text says_rejectedWorld, rfl⟩
  obtain ⟨w', hset, -⟩ :=
    hstanding.run_set (s := .simple) (c := { Settings.empty with simple := some true })
      (Json.reads_ofString "yes") rfl
  refine ⟨says_rejectedWorld, w', hset, fun m' hfresh => ?_⟩
  obtain ⟨v, hv, hall⟩ := takes_effect_iff says_rejectedWorld (by simp) (Json.reads_ofString "yes") hset
  obtain ⟨v', w'', hget, -, hiff⟩ := hall m' hfresh
  cases hv
  have hothers : OthersAccepted rejectedTable .simple := by
    intro s' hs'
    cases s' with
    | simple => exact absurd rfl hs'
    | _ => exact ⟨none, rfl⟩
  rw [hiff.mpr (.inl hothers)] at hget
  exact ⟨w'', hget⟩

/-- **A value that was accepted need not take effect**: beside the rejected flag a prompt can be set, and a
new manager still finds the default. -/
theorem accepted_without_effect :
    Says rejectedWorld rejectedTable ∧
      ∃ w', (set 0 "prompt" (.str "> ")).run rejectedWorld = .ok () w' ∧
        Setting.prompt.check (some (.str "> ")) = .ok (some (.text "> ")) ∧
        ∃ m' w'', w'.settings.get? m' = none ∧
          (get m' .prompt).run w' = .ok (.text "$ ") w'' ∧ Setting.Value.text "$ " ≠ .text "> " := by
  have hstanding : Standing 0 "/h" rejectedWorld (some rejectedTable) none :=
    ⟨rfl, holds_of_text says_rejectedWorld, rfl⟩
  obtain ⟨w', hset, hhome, hfile, -⟩ :=
    hstanding.run_set (s := .prompt) (c := { Settings.empty with prompt := some "> " })
      (Json.reads_ofString "> ") rfl
  obtain ⟨m', hfresh⟩ := w'.settings.exists_get?_eq_none
  obtain ⟨w'', hget, -⟩ := (Standing.of_stands hfile m').run_get .prompt
  rw [hfresh, hhome] at hget
  exact ⟨says_rejectedWorld, w', hset, rfl, m', w'', hfresh, hget, by decide⟩

end Manager

end CommandShell

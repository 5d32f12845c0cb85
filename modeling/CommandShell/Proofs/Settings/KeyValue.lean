import CommandShell.Proofs.Settings.Standing
import Mathlib.Logic.Function.Basic

/-! # The settings file as a map

Whatever managers remember, the settings file answers like a map from settings to values. `Gives` is the
invariant: the file gives every setting a certain value, by what it holds or, while it is missing, by the
defaults. A call of a manager does to the file what `Call.effect` does to the values, or ends with a
fault of a bad value and does nothing to them (`perform_cases`). So after any calls a manager that has
nothing in memory finds for each setting what the last call on it that returned left there
(`file_is_map`). -/

namespace CommandShell

namespace SettingsFile

variable {w : World} {values : Setting → Setting.Value} {file : Option (Table RawText Json)}

/-! ## What the file gives -/

/-- The settings file gives the settings these values: it holds accepted settings that have them, or
it is missing and they are the defaults. -/
inductive Gives (w : World) (values : Setting → Setting.Value) : Prop
  | held {t : Table RawText Json} {c : Settings} (h : Holds w t) (hc : Settings.ofMembers t = .ok c)
      (hvalues : ∀ s, c.effective w.home s = values s)
  | missing (h : Missing w) (hvalues : ∀ s, s.default w.home = values s)

/-- The settings of such a file are accepted, and have the values. -/
theorem Gives.stands (h : Gives w values) :
    ∃ file, Stands w file ∧ Settings.ofMembers (file.getD {}) = .ok (loaded file) ∧
      ∀ s, (loaded file).effective w.home s = values s := by
  cases h with
  | @held t c h hc hvalues =>
    refine ⟨some t, h, ?_, ?_⟩
    · rw [loaded_of_ok hc]
      exact hc
    · rw [loaded_of_ok hc]
      exact hvalues
  | missing h hvalues =>
    refine ⟨none, h, rfl, fun s => ?_⟩
    rw [loaded, effective_empty]
    exact hvalues s

/-- A file with accepted settings gives their values. -/
theorem Gives.of_stands {c : Settings} (h : Stands w file)
    (hc : Settings.ofMembers (file.getD {}) = .ok c)
    (hvalues : ∀ s, c.effective w.home s = values s) : Gives w values := by
  cases file with
  | some t => exact .held h hc hvalues
  | none =>
    refine .missing h fun s => ?_
    cases hc
    rw [← hvalues s]
    cases s <;> rfl

end SettingsFile

namespace Manager

open SettingsFile

variable {w : World} {values : Setting → Setting.Value}

/-- Reading changes no value, and a manager that has nothing in memory finds the values of the file. -/
theorem run_get (h : Gives w values) (m : ManagerId) (s : Setting) :
    ∃ v w', (get m s).run w = .ok v w' ∧ w'.home = w.home ∧ Gives w' values ∧
      (w.settings.get? m = none → v = values s) := by
  obtain ⟨file, hfile, hc, hvalues⟩ := h.stands
  obtain ⟨w', hrun, hhome, hfile', -⟩ := (Standing.of_stands hfile m).run_get s
  refine ⟨_, w', hrun, hhome, ?_, fun hfresh => ?_⟩
  · -- What a manager remembers may be old, but to ask it changes nothing.
    cases hmemory : w.settings.get? m with
    | some c =>
      rw [hmemory] at hfile'
      exact .of_stands hfile' hc (by rwa [hhome])
    | none =>
      rw [hmemory] at hfile'
      obtain ⟨d, hd, heffective, -⟩ := exists_ofMembers_created w.home hc
      refine .of_stands hfile' hd fun s => ?_
      rw [hhome, heffective, hvalues]
  · rw [hfresh]
    exact hvalues s

/-! ## Giving and taking -/

/-- **Giving a setting an accepted value** gives it this value and leaves the others. -/
theorem run_set (h : Gives w values) (m : ManagerId) {s : Setting} {j : Json} {v : Setting.Value}
    (hv : s.check (some j) = .ok (some v))
    (hreads : ∀ x, j = .str x → Json.decode (Json.str x).encode = .ok (.str x)) :
    ∃ w', (set m s.key j).run w = .ok () w' ∧ w'.home = w.home ∧
      Gives w' (Function.update values s v) := by
  obtain ⟨file, hfile, hc, hvalues⟩ := h.stands
  obtain ⟨c', hc', hget⟩ := Settings.exists_ofMembers_members_put (loaded file) hv
  obtain ⟨w', hrun, hhome, hfile', -⟩ := (Standing.of_stands hfile m).run_set hreads hc'
  refine ⟨w', hrun, hhome, ?_⟩
  -- What was loaded is among what the file holds, so merging it changes only the one setting.
  obtain ⟨d, hd, heffective, hamong⟩ := exists_ofMembers_created w.home hc
  obtain ⟨d', hd', hmerged⟩ := Settings.ofMembers_merge hd c'
  refine .of_stands hfile' hd' fun s' => ?_
  rw [hhome, Settings.effective, hmerged, hget s']
  by_cases hs : s = s'
  · rw [if_pos hs, hs, Function.update_self]
    rfl
  · rw [if_neg hs, hamong, Function.update_of_ne (Ne.symm hs), ← hvalues s', ← heffective s']
    rfl

/-- Giving a setting a value that is not accepted ends with a fault of a bad value and changes no
value. -/
theorem run_set_rejected (h : Gives w values) (m : ManagerId) {s : Setting} {j : Json}
    (hv : ∀ v, s.check (some j) ≠ .ok v) :
    ∃ f w', (set m s.key j).run w = .error f w' ∧ f.isValue = true ∧ w'.home = w.home ∧
      Gives w' values := by
  obtain ⟨file, hfile, hc, hvalues⟩ := h.stands
  obtain ⟨r, hr⟩ | ⟨v', _, hv', _, _⟩ := Settings.ofMembers_members_put (loaded file) s j
  · obtain ⟨w', hrun, hhome, hfile', -⟩ := (Standing.of_stands hfile m).run_set_rejected hr
    obtain ⟨d, hd, heffective, -⟩ := exists_ofMembers_created w.home hc
    refine ⟨.rejected r, w', hrun, rfl, hhome, .of_stands hfile' hd fun s' => ?_⟩
    rw [hhome, heffective, hvalues]
  · exact absurd hv' (hv v')

/-- **Taking a setting out** gives it its default and leaves the others. -/
theorem run_unset (h : Gives w values) (m : ManagerId) (s : Setting) :
    ∃ w', (unset m s.key).run w = .ok () w' ∧ w'.home = w.home ∧
      Gives w' (Function.update values s (s.default w.home)) := by
  obtain ⟨file, hfile, hc, hvalues⟩ := h.stands
  obtain ⟨w', hrun, hhome, hfile', -⟩ := (Standing.of_stands hfile m).run_unset s
  obtain ⟨d, hd, hget⟩ := Settings.ofMembers_remove hc s
  refine ⟨w', hrun, hhome, .of_stands hfile' hd fun s' => ?_⟩
  rw [hhome, Settings.effective, hget s']
  by_cases hs : s = s'
  · rw [if_pos hs, hs, Function.update_self]
    rfl
  · rw [if_neg hs, Function.update_of_ne (Ne.symm hs)]
    exact hvalues s'

/-! ## Calls -/

/-- A call of a manager: to give a setting a value, to take it out, or to tell its value. -/
inductive Call
  | set (m : ManagerId) (key : String) (value : Json)
  | unset (m : ManagerId) (key : String)
  | get (m : ManagerId) (s : Setting)

namespace Call

/-- Perform a call. -/
def perform : Call → Shell Unit
  | set m key value => Manager.set m key value
  | unset m key => Manager.unset m key
  | get m s => do let _ ← Manager.get m s

/-- The key whose value a call changes. -/
def key? : Call → Option String
  | set _ key _ => some key
  | unset _ key => some key
  | get _ _ => none

/-- A call that gives a value gives one other than null, and a text that JSON reads back. -/
def Proper : Call → Prop
  | set _ _ j => j ≠ .null ∧ ∀ x, j = .str x → Json.decode (Json.str x).encode = .ok (.str x)
  | unset _ _ => True
  | get _ _ => True

/-- What a call makes of the values of the settings, if it returns. -/
def effect (home : String) (values : Setting → Setting.Value) :
    Call → Option (Setting → Setting.Value)
  | set _ key j =>
    match Setting.ofKey? key with
    | none => none
    | some s =>
      match s.check (some j) with
      | .ok (some v) => some (Function.update values s v)
      | _ => none
  | unset _ key => (Setting.ofKey? key).map fun s => Function.update values s (s.default home)
  | get _ _ => some values

end Call

/-- **A call does to the file what it does to the values**, or ends with a fault of a bad value and
changes none of them. -/
theorem perform_cases (h : Gives w values) (call : Call) (hcall : call.Proper) :
    (∃ values' w', call.effect w.home values = some values' ∧ call.perform.run w = .ok () w' ∧
      w'.home = w.home ∧ Gives w' values') ∨
    ∃ f w', call.effect w.home values = none ∧ call.perform.run w = .error f w' ∧
      f.isValue = true ∧ w'.home = w.home ∧ Gives w' values := by
  -- An unknown key is refused before anything is read.
  have hunknown {key : String} (hkey : Setting.ofKey? key = none) {g : Setting → Shell Unit} :
      (setting key >>= g).run w = .error (.unknownSetting key) w :=
    Shell.run_bind_error (run_setting_unknown hkey w) g
  cases call with
  | get m s =>
    obtain ⟨v, w', hrun, hhome, hgives, _⟩ := run_get h m s
    refine .inl ⟨values, w', rfl, ?_, hhome, hgives⟩
    exact (Shell.run_bind_ok hrun _).trans rfl
  | unset m key =>
    cases hkey : Setting.ofKey? key with
    | none =>
      refine .inr ⟨_, w, ?_, hunknown hkey, rfl, rfl, h⟩
      rw [Call.effect, hkey]
      rfl
    | some s =>
      obtain rfl := Setting.ofKey?_eq_some hkey
      obtain ⟨w', hrun, hhome, hgives⟩ := run_unset h m s
      refine .inl ⟨_, w', ?_, hrun, hhome, hgives⟩
      rw [Call.effect, hkey]
      rfl
  | set m key j =>
    obtain ⟨hnull, hreads⟩ := hcall
    cases hkey : Setting.ofKey? key with
    | none =>
      refine .inr ⟨_, w, ?_, hunknown hkey, rfl, rfl, h⟩
      simp only [Call.effect, hkey]
    | some s =>
      obtain rfl := Setting.ofKey?_eq_some hkey
      cases hcheck : s.check (some j) with
      | error findings =>
        have hrejected (v : Option Setting.Value) : s.check (some j) ≠ .ok v := by
          rw [hcheck]
          exact fun h => by cases h
        obtain ⟨f, w', hrun, hvalue, hhome, hgives⟩ := run_set_rejected h m hrejected
        refine .inr ⟨f, w', ?_, hrun, hvalue, hhome, hgives⟩
        simp only [Call.effect, hkey, hcheck]
      | ok v =>
        obtain ⟨v, rfl⟩ := Setting.isSome_of_check hnull hcheck
        obtain ⟨w', hrun, hhome, hgives⟩ := run_set h m hcheck hreads
        refine .inl ⟨_, w', ?_, hrun, hhome, hgives⟩
        simp only [Call.effect, hkey, hcheck]

/-! ## Many calls -/

/-- The world after calls, one after the other, and how each of them ended. A call that ends with a
fault does not keep the next one from being made. -/
def performAll : List Call → World → World × List (Call × Option Fault)
  | [], w => (w, [])
  | call :: calls, w =>
    match call.perform.run w with
    | .ok _ w' => ((performAll calls w').1, (call, none) :: (performAll calls w').2)
    | .error f w' => ((performAll calls w').1, (call, some f) :: (performAll calls w').2)

/-- Whether a call changed a setting: it returned, and was on the key of the setting. -/
def changed (s : Setting) (e : Call × Option Fault) : Bool := e.2.isNone && e.1.key? == some s.key

/-- The last call on a setting that returned. -/
def lastOn? (s : Setting) (history : List (Call × Option Fault)) : Option Call :=
  (history.filter (changed s)).getLast?.map Prod.fst

/-- The value that a setting has after the last call on it that returned; without such a call it has
the value from the start. -/
def Settles (home : String) (s : Setting) (start : Setting.Value) :
    Option Call → Setting.Value → Prop
  | none, v => v = start
  | some (.set _ _ j), v => s.check (some j) = .ok (some v)
  | some (.unset _ _), v => v = s.default home
  | some (.get _ _), _ => False

/-- The last call on a setting is among the later calls, and else it is the first one. -/
theorem lastOn?_cons (s : Setting) (e : Call × Option Fault) (history : List (Call × Option Fault)) :
    lastOn? s (e :: history) = (lastOn? s history).or (if changed s e then some e.1 else none) := by
  unfold lastOn?
  by_cases he : changed s e = true
  · rw [List.filter_cons_of_pos he, List.getLast?_cons, if_pos he]
    cases (history.filter (changed s)).getLast? with
    | none => rfl
    | some last => rfl
  · rw [List.filter_cons_of_neg he, if_neg he, Option.or_none]

/-- A call on a setting that returned settles its value. -/
theorem settles_of_effect {home : String} {values values' : Setting → Setting.Value} {call : Call}
    {s : Setting} {start : Setting.Value} (h : call.effect home values = some values')
    (hkey : call.key? = some s.key) : Settles home s start (some call) (values' s) := by
  cases call with
  | get m s' => cases hkey
  | unset m key =>
    cases hkey
    rw [Call.effect, Setting.ofKey?_key] at h
    cases h
    exact Function.update_self _ _ _
  | set m key j =>
    cases hkey
    simp only [Call.effect, Setting.ofKey?_key] at h
    split at h
    · rename_i hcheck
      cases h
      rw [Settles, Function.update_self]
      exact hcheck
    · cases h

/-- A call on another setting leaves the value. -/
theorem effect_other {home : String} {values values' : Setting → Setting.Value} {call : Call}
    {s : Setting} (h : call.effect home values = some values') (hkey : call.key? ≠ some s.key) :
    values' s = values s := by
  have hother {s' : Setting} {key : String} (hof : Setting.ofKey? key = some s')
      (hne : some key ≠ some s.key) : s ≠ s' := by
    rintro rfl
    exact hne (by rw [Setting.ofKey?_eq_some hof])
  -- Setting and unsetting update the values at one setting only.
  cases call with
  | get m s' =>
    cases h
    rfl
  | unset m key =>
    cases hof : Setting.ofKey? key with
    | none =>
      rw [Call.effect, hof] at h
      cases h
    | some s' =>
      rw [Call.effect, hof] at h
      cases h
      exact Function.update_of_ne (hother hof hkey) _ _
  | set m key j =>
    cases hof : Setting.ofKey? key with
    | none =>
      simp only [Call.effect, hof] at h
      cases h
    | some s' =>
      simp only [Call.effect, hof] at h
      split at h
      · cases h
        exact Function.update_of_ne (hother hof hkey) _ _
      · cases h

/-- What settles a value after a call settles it with that call in front. -/
theorem settles_cons {home : String} {s : Setting} {start mid v : Setting.Value}
    {e : Call × Option Fault} {history : List (Call × Option Fault)}
    (h : Settles home s mid (lastOn? s history) v)
    (hon : changed s e = true → Settles home s start (some e.1) mid)
    (hoff : changed s e = false → mid = start) :
    Settles home s start (lastOn? s (e :: history)) v := by
  rw [lastOn?_cons]
  cases hlast : lastOn? s history with
  | some call =>
    rw [hlast] at h
    cases call with
    | get m s' => exact h.elim
    | unset m key => exact h
    | set m key j => exact h
  | none =>
    rw [hlast] at h
    -- No later call is on the setting, so the first one decides.
    obtain rfl : v = mid := h
    rw [Option.none_or]
    by_cases he : changed s e = true
    · rw [if_pos he]
      exact hon he
    · rw [if_neg he]
      exact hoff (Bool.eq_false_iff.mpr he)

/-- **After any calls** the file gives every setting what the last call on it that returned left
there. -/
theorem gives_performAll (h : Gives w values) (calls : List Call)
    (hcalls : ∀ call ∈ calls, call.Proper) :
    ∃ values', Gives (performAll calls w).1 values' ∧
      ∀ s, Settles w.home s (values s) (lastOn? s (performAll calls w).2) (values' s) := by
  -- By induction on the calls, from whatever values the file gives after the first one.
  induction calls generalizing w values with
  | nil => exact ⟨values, h, fun s => rfl⟩
  | cons call calls ih =>
    have hrest := fun c hc => hcalls c (List.mem_cons_of_mem _ hc)
    obtain ⟨values₁, w₁, heffect, hrun, hhome, hgives⟩ | ⟨f, w₁, _, hrun, _, hhome, hgives⟩ :=
      perform_cases h call (hcalls call List.mem_cons_self)
    · obtain ⟨values', hfinal, hsettles⟩ := ih hgives hrest
      simp only [performAll, hrun]
      refine ⟨values', hfinal, ?_⟩
      intro s
      rw [hhome] at hsettles
      refine settles_cons (hsettles s) (fun he => ?_) fun he => ?_
      · exact settles_of_effect heffect (eq_of_beq he)
      · exact effect_other heffect (ne_of_beq_false he)
    · obtain ⟨values', hfinal, hsettles⟩ := ih hgives hrest
      simp only [performAll, hrun]
      refine ⟨values', hfinal, ?_⟩
      intro s
      rw [hhome] at hsettles
      exact settles_cons (hsettles s) (fun he => by cases he) fun _ => rfl

/-- Every manager that has nothing in memory finds these values. -/
def Tells (w : World) (values : Setting → Setting.Value) : Prop :=
  ∀ m s, w.settings.get? m = none → ∃ w', (get m s).run w = .ok (values s) w'

/-- Managers that remember nothing find what the file gives. -/
theorem tells_of_gives (h : Gives w values) : Tells w values := by
  intro m s hfresh
  obtain ⟨v, w', hrun, _, _, hv⟩ := run_get h m s
  rw [hv hfresh] at hrun
  exact ⟨w', hrun⟩

/-- The settings file is missing, or it says an object that is accepted as settings. -/
def Initial (w : World) : Prop :=
  Missing w ∨ ∃ t c, Says w t ∧ Settings.ofMembers t = .ok c

/-- A file that is missing or accepted gives values. -/
theorem exists_gives_of_initial (h : Initial w) : ∃ values, Gives w values := by
  obtain hmissing | ⟨t, c, hsays, hc⟩ := h
  · exact ⟨_, .missing hmissing fun _ => rfl⟩
  · exact ⟨_, .held (holds_of_text hsays) hc fun _ => rfl⟩

/-- **The settings file is a map from settings to values**, under any calls of any managers with
anything in memory: each setting has the checked value that the last call on it that returned gave,
its default if that call took it out, and otherwise its value from the start. Calls end with no faults
but those of a bad value, and these change no value. -/
theorem file_is_map (h : Initial w) :
    ∃ start, Tells w start ∧ ∀ calls : List Call, (∀ call ∈ calls, call.Proper) →
      ∃ values, Tells (performAll calls w).1 values ∧
        (∀ s, Settles w.home s (start s) (lastOn? s (performAll calls w).2) (values s)) ∧
        ∀ call : Call, call.Proper → ∀ f w', call.perform.run (performAll calls w).1 = .error f w' →
          f.isValue = true ∧ Tells w' values := by
  obtain ⟨start, hstart⟩ := exists_gives_of_initial h
  refine ⟨start, tells_of_gives hstart, ?_⟩
  intro calls hcalls
  obtain ⟨values, hgives, hsettles⟩ := gives_performAll hstart calls hcalls
  refine ⟨values, tells_of_gives hgives, hsettles, ?_⟩
  intro call hcall f w' hrun
  obtain ⟨_, w₁, _, hok, _, _⟩ | ⟨f', w₁, _, herror, hvalue, _, hgives'⟩ :=
    perform_cases hgives call hcall
  · rw [hok] at hrun
    cases hrun
  · rw [herror] at hrun
    cases hrun
    exact ⟨hvalue, tells_of_gives hgives'⟩

/-- An object that sets one flag. -/
def sampleTable : Table RawText Json := ⟨[("simple", .bool true)]⟩

/-- The bytes of a file that says that object. -/
def sampleBytes : List UInt8 := Utf8.encode ((Json.ofTable sampleTable).encode ++ "\n").toList

/-- A world whose settings file says that object, and in which one manager remembers no settings. -/
def sampleWorld : World :=
  { (default : World) with
    home := "/h"
    files := ⟨⟨[(["h"], .directory), (["h", ".cmdsh"], .directory),
      (["h", ".cmdsh", "config.json"],
        .file (.bytes sampleBytes))]⟩⟩
    settings := ⟨[(0, Settings.empty)]⟩ }

/-- Two managers give a setting a value after each other, and a third value is rejected. -/
def sampleCalls : List Call :=
  [.set 0 "prompt" (.str "> "), .set 1 "prompt" (.str "% "), .set 0 "simple" (.int 2), .unset 1 "simple"]

/-- The file of the sample is accepted. -/
theorem initial_sampleWorld : Initial sampleWorld := by
  refine .inr ⟨sampleTable, ⟨none, none, none, none, none, some true, none⟩, ?_, rfl⟩
  refine says_of_files rfl rfl (faithful_singleton "simple" trivial) ?_
  exact fun x hx => absurd hx List.not_mem_nil

/-- The calls of the sample leave each setting with the value of the last call on it that returned. -/
theorem file_is_map_sample :
    (Initial sampleWorld ∧ ∀ call ∈ sampleCalls, call.Proper) ∧
      ∃ start, Tells sampleWorld start ∧
        ∃ values, Tells (performAll sampleCalls sampleWorld).1 values ∧
          ∀ s, Settles "/h" s (start s) (lastOn? s (performAll sampleCalls sampleWorld).2)
            (values s) := by
  have hproper : ∀ call ∈ sampleCalls, call.Proper := by
    intro call hcall
    rcases List.mem_cons.mp hcall with rfl | hcall
    · refine ⟨Json.noConfusion, ?_⟩
      intro x hx
      cases hx
      rfl
    rcases List.mem_cons.mp hcall with rfl | hcall
    · refine ⟨Json.noConfusion, ?_⟩
      intro x hx
      cases hx
      rfl
    rcases List.mem_cons.mp hcall with rfl | hcall
    · exact ⟨Json.noConfusion, fun x hx => Json.noConfusion hx⟩
    · rw [List.mem_singleton.mp hcall]
      trivial
  obtain ⟨start, hstart, hall⟩ := file_is_map initial_sampleWorld
  obtain ⟨values, hvalues, hsettles, _⟩ := hall sampleCalls hproper
  exact ⟨⟨initial_sampleWorld, hproper⟩, start, hstart, values, hvalues, hsettles⟩

end Manager

end CommandShell

import CommandShell.Proofs.Command.Reading
import CommandShell.Proofs.Loader.Steady
import CommandShell.Proofs.Session.Calls

/-! # What is classified as internal is known

A name is internal if the registry answers it, if there is a module of its name, or if the registry
answers it once all modules are loaded. In a session of docile commands such a name is known from then on
(`knows_of_isInternal`), and so are the internal commands of every line that is read
(`knowsAll_of_parse`). -/

namespace CommandShell.Session

open World

variable {B : Builtin → Prop} {w u v : World} {name : String}

/-! ## Looking names up -/

/-- The registry of the session is asked without changing anything; what it gives is docile. -/
theorem lookup_cases (hu : Steady B w u) (name : String) :
    (u.commands.Answers (normalName name) ∧ ∃ e, e.handler.Docile B ∧
      (Shell.lookup u.context.registry name).run u = .ok (some e) u) ∨
    (¬ u.commands.Answers (normalName name) ∧
      (Shell.lookup u.context.registry name).run u = .ok none u) := by
  have hrun (found : Option Entry) (h : u.commands.find name = .ok found) :
      (Shell.lookup u.context.registry name).run u = .ok found u := by
    unfold World.commands at h
    unfold Shell.lookup
    rw [Shell.run_bind_ok (EStateM.run_get u), h]
    rfl
  obtain ⟨hanswers, e, hfind, he⟩ | ⟨hanswers, hfind⟩ := hu.commands.find_cases name
  · exact .inl ⟨hanswers, e, he, hrun _ hfind⟩
  · exact .inr ⟨hanswers, hrun _ hfind⟩

/-- A name that the registry answers is not empty. -/
theorem ne_empty_of_answers (hu : Steady B w u) (h : u.commands.Answers (normalName name)) :
    name ≠ "" := by
  rintro rfl
  exact hu.commands.named h

/-- A name that is registered is known. -/
theorem knows_of_isRegistered (hu : Steady B w u) (h : (isRegistered name).run u = .ok true v) :
    w.Knows v name := by
  unfold isRegistered at h
  rw [Shell.run_bind_ok (EStateM.run_get u)] at h
  obtain ⟨hanswers, e, _, hlookup⟩ | ⟨_, hlookup⟩ := lookup_cases hu name
  · rw [Shell.run_bind_ok hlookup] at h
    cases h
    exact ⟨ne_empty_of_answers hu hanswers, .inl hanswers⟩
  · rw [Shell.run_bind_ok hlookup] at h
    exact nomatch h

variable (h : w.Prepared B)

include h

/-- A name of which there is a module is not empty. -/
theorem ne_empty_of_offers (hoffers : w.Offers (normalName name)) : name ≠ "" := by
  rintro rfl
  obtain ⟨t, w', hindex, hkey⟩ := hoffers
  obtain ⟨file, hfile⟩ := Table.mem_keys_iff.mp hkey
  obtain ⟨_, _, m, _, _, hm⟩ := h.modules t w' hindex _ (Table.mem_of_get? hfile)
  exact hm.key_ne_empty rfl

/-- A name among the modules is offered. -/
theorem offers_of_available (hu : Steady B w u) {names : List String}
    (hrun : Loader.available.run u = .ok names v) {key : String} (hkey : key ∈ names) :
    w.Offers key := by
  unfold Loader.available at hrun
  obtain ⟨t, u₁, hindex, hrest⟩ := Shell.run_bind_eq_ok_iff.mp hrun
  obtain ⟨w', hindex'⟩ := h.run_index hu hindex
  cases hrest
  exact ⟨t, w', hindex', List.mem_mergeSort.mp hkey⟩

/-! ## Classifying -/

/-- **An internal name is known** from the world on in which it was classified. -/
theorem knows_of_isInternal (hu : Steady B w u) (hrun : (isInternal name).run u = .ok true v) :
    w.Knows v name := by
  have hR := reporting_keeps (B := B) (w := w)
  unfold isInternal at hrun
  obtain ⟨registered, u₁, hregistered, hrest⟩ := Shell.run_bind_eq_ok_iff.mp hrun
  split at hrest
  · -- The name is registered.
    rename_i htrue
    subst htrue
    cases hrest
    exact knows_of_isRegistered hu hregistered
  · have hu₁ : Steady B w u₁ := by
      have hwithin : Shell.Within (Keeps B w) (isRegistered name) :=
        hR.within_bind hR.within_get fun _ =>
          hR.within_bind (Shell.heeds_lookup hR.toLogging _ name).within fun _ => hR.within_pure _
      exact (hwithin.of_ok hregistered hu).1
    obtain ⟨available, u₂, havailable, hrest⟩ := Shell.run_bind_eq_ok_iff.mp hrest
    split at hrest
    · -- There is a module of the name.
      rename_i hmem
      cases hrest
      have hoffers := offers_of_available h hu₁ havailable (List.contains_iff_mem.mp hmem)
      exact ⟨ne_empty_of_offers h hoffers, .inr hoffers⟩
    · -- The name is registered once all modules are loaded.
      obtain ⟨n, u₃, hload, hregistered'⟩ := Shell.run_bind_eq_ok_iff.mp hrest
      have hu₂ := ((Loader.heeds_available hR.toLogging).within.of_ok havailable hu₁).1
      have hu₃ := ((h.keeps_loadAll false).of_ok hload hu₂).1
      exact knows_of_isRegistered hu₃ hregistered'

/-- A name that is told to be internal is known. -/
theorem knows_of_classify (hu : Steady B w u) (hrun : (classify name).run u = .ok true v) :
    w.Knows v name := by
  have hclassifier : u.classifier = .session := hu.classifier.trans h.classifier
  unfold classify at hrun
  rw [Shell.run_bind_ok (EStateM.run_get u), hclassifier] at hrun
  exact knows_of_isInternal h hu hrun

/-! ## Reading -/

/-- The name of the command that a segment is read as is known, if it is internal. -/
theorem knowsAll_of_readSegment (hu : Steady B w u) {segment : List Char} {c? : Option Command}
    (hrun : (Line.readSegment classify segment).run u = .ok (.ok c?) v) :
    w.KnowsAll v c?.toList := by
  unfold Line.readSegment at hrun
  split at hrun
  · exact nomatch hrun
  · rename_i name arguments _
    -- The name was asked for while the segment was read, and an answer makes it known.
    obtain ⟨internal, u₁, hclassify, hrest⟩ := Shell.run_bind_eq_ok_iff.mp hrun
    cases internal with
    | true =>
      have hknows := knows_of_classify h hu hclassify
      cases hrest
      intro c hc _ name' hname
      rw [List.mem_singleton.mp hc] at hname
      rw [← Option.some.inj hname]
      exact hknows
    | false =>
      cases hrest
      intro c hc hinternal
      rw [List.mem_singleton.mp hc] at hinternal
      exact nomatch hinternal
  · rename_i r hnamed _
    cases hrun
    intro c hc hinternal
    cases r with
    | nothing => exact nomatch hc
    | named name arguments => exact (hnamed name arguments rfl).elim
    | forHost text =>
      rw [List.mem_singleton.mp hc] at hinternal
      exact nomatch hinternal

/-- So are those of some segments. -/
theorem knowsAll_of_readSegments (hu : Steady B w u) {segments : List (List Char)}
    {cs : List Command} (hrun : (Line.readSegments classify segments).run u = .ok (.ok cs) v) :
    w.KnowsAll v cs := by
  have hR := reporting_keeps (B := B) (w := w)
  induction segments generalizing u cs v with
  | nil =>
    cases hrun
    exact fun c hc => absurd hc List.not_mem_nil
  | cons s ss ih =>
    unfold Line.readSegments at hrun
    obtain ⟨r, u₁, hsegment, hrest⟩ := Shell.run_bind_eq_ok_iff.mp hrun
    split at hrest
    · exact nomatch hrest
    · rename_i c?
      obtain ⟨rs, u₂, hsegments, hrest⟩ := Shell.run_bind_eq_ok_iff.mp hrest
      split at hrest
      · exact nomatch hrest
      · rename_i more
        cases hrest
        -- What the first segment asked for stays known while the others are read.
        have hu₁ := ((within_readSegment hR.toLogging (h.keeps_loadAll false) s).of_ok hsegment hu).1
        have hkeeps := ((within_readSegments hR.toLogging (h.keeps_loadAll false) ss).of_ok hsegments hu₁).2
        have hfirst := (knowsAll_of_readSegment h hu hsegment).mono hkeeps
        intro c hc
        rcases List.mem_append.mp hc with hc | hc
        · exact hfirst c hc
        · exact ih hu₁ hsegments c hc

/-- **The internal commands of a line** are known once it was read. -/
theorem knowsAll_of_parse (hu : Steady B w u) {line : String} {cs : List Command}
    (hrun : (parse line).run u = .ok cs v) : w.KnowsAll v cs := by
  have hnil (v : World) : w.KnowsAll v [] := fun c hc => absurd hc List.not_mem_nil
  have hparse := hrun.symm.trans (run_parseWith classify line u)
  cases hread : (Line.read classify line.toList).run u with
  | ok r u₁ =>
    rw [hread] at hparse
    cases r with
    | ok cs' =>
      cases hparse
      unfold Line.read at hread
      split at hread
      · cases hread
      · exact (knowsAll_of_readSegments h hu hread).mono fun _ hkey => hkey
    | error f =>
      -- A line that cannot be read has no commands.
      cases hparse
      exact hnil _
  | error f u₁ =>
    rw [hread] at hparse
    dsimp only at hparse
    split at hparse
    · cases hparse
      exact hnil _
    · cases hparse

end CommandShell.Session

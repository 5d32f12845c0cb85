import CommandShell.History.Basic
import CommandShell.Proofs.Shell.Routine

/-! # What routine actions do

Three things are known of every routine action, by induction on how it is put together. It ends alike in
worlds that differ in what it does not see only (`Shell.Routine.carries`): the trace, the line of the
session, and how commands end on the host. It adds to the trace, and to a history in memory the entries
among what it adds (`Shell.Routine.grew`). In an ordinary world it ends with an ordinary fault at most, and
leaves an ordinary world (`Shell.Routine.staysOrdinary`). -/

namespace CommandShell

/-! ## Ending alike -/

/-- Two worlds are the same but for the trace and the line of the session, which stand in relations. -/
structure World.Alike (T : List Event → List Event → Prop) (N : Option String → Option String → Prop)
    (w u : World) : Prop where
  /-- The rest is the same. -/
  same : u = w.retold u.trace u.session.name
  /-- The traces are related. -/
  traces : T w.trace u.trace
  /-- The lines are related. -/
  names : N w.session.name u.session.name

namespace Shell

section

variable {α : Type} {Own : Shell Unit → Prop} {T : List Event → List Event → Prop}
  {N : Option String → Option String → Prop} {S : World → World → Prop}

/-- Traces that are related stay so when the same events come to both. -/
def Grows (T : List Event → List Event → Prop) : Prop := ∀ t t' es, T t t' → T (t ++ es) (t' ++ es)

section

variable {g : World → World} (h : Blind g) (w : World)

include h

/-- A blind change leaves all that is unseen. -/
theorem Blind.unseen : (g w).unseen = w.unseen := by
  have hsame : g w = (g w).behind w.unseen := h.behind w w.unseen
  rw [hsame]
  rfl

/-- A blind change leaves how commands end on the host. -/
theorem Blind.returncodes : (g w).host.returncodes = w.host.returncodes :=
  congrArg World.Unseen.returncodes (h.unseen w)

/-- A blind change leaves the trace. -/
theorem Blind.trace : (g w).trace = w.trace := congrArg World.Unseen.trace (h.unseen w)

/-- A blind change leaves the line of the session. -/
theorem Blind.name : (g w).session.name = w.session.name :=
  congrArg World.Unseen.name (h.unseen w)

end

/-- A relation that **routine actions do not notice**: worlds in it differ in what is unseen only, and they
stay in it when the same event comes to both, and when the same is changed of what is seen. -/
structure Unnoticed (S : World → World → Prop) : Prop where
  /-- What is seen is the same. -/
  same : ∀ w u, S w u → u = w.behind u.unseen
  /-- The same event may come to both. -/
  emit : ∀ w u e, S w u → S (w.emitted [e]) (u.emitted [e])
  /-- The same may be changed of what is seen. -/
  change : ∀ g, Blind g → ∀ w u, S w u → S (g w) (g u)

/-- Emitting an event carries over between worlds whose difference is not noticed. -/
theorem Unnoticed.carries_emit (hS : Unnoticed S) (e : Event) : Carries S (Shell.emit e) :=
  fun w u h => .ok (hS.emit w u e h)

/-- So does a change that is blind to what is unseen. -/
theorem Unnoticed.carries_modify (hS : Unnoticed S) {g : World → World} (hg : Blind g) :
    Carries S (modify g) := fun w u h => .ok (hS.change g hg w u h)

/-- Routine actions do not notice the trace and the line. -/
theorem unnoticed_alike (hT : Grows T) : Unnoticed (World.Alike T N) where
  same w u h := by
    rw [h.same]
    rfl
  emit w u e h := by
    refine ⟨?_, hT _ _ _ h.traces, h.names⟩
    rw [h.same]
    rfl
  change g hg w u h := by
    refine ⟨?_, by rw [hg.trace, hg.trace]; exact h.traces, by rw [hg.name, hg.name]; exact h.names⟩
    rw [hg.trace, hg.name]
    calc g u = g (w.behind ⟨w.host.returncodes, u.trace, u.session.name⟩) := congrArg g h.same
      _ = (g w).behind ⟨w.host.returncodes, u.trace, u.session.name⟩ := hg.behind _ _
      _ = (g w).retold u.trace u.session.name := by
        rw [← hg.returncodes w]
        rfl

/-- **A routine action ends alike** in worlds that differ in what it does not notice. -/
theorem Routine.carries (hS : Unnoticed S) {a : Shell α} (h : Routine False Own a)
    (hown : ∀ a, Own a → Carries S a) : Carries S a := by
  induction h with
  | pure x => exact carries_pure x
  | throw _ => exact carries_throw _
  | bind _ _ ha hg => exact carries_bind ha hg
  | «catch» _ _ ha hr => exact carries_catch ha fun f => hr f False.elim
  | @look _ g hblind _ hg =>
    intro w u h
    have hu : g u = g w := (congrArg g (hS.same w u h)).trans (hblind w _)
    rw [run_bind_ok (EStateM.run_get w), run_bind_ok (EStateM.run_get u), hu]
    exact hg w False.elim w u h
  | change h => exact hS.carries_modify h.blind
  | tell _ => exact hS.carries_emit _
  | own h => exact hown _ h

/-- An action that is routine without further actions. -/
theorem Routine.carries_plain (hS : Unnoticed S) {a : Shell α} (h : Routine False (fun _ => False) a) :
    Carries S a := h.carries hS fun _ h => h.elim

/-- An entry is recorded alike in worlds that differ in what is not noticed. -/
theorem carries_record (hS : Unnoticed S) (entry : String) : Carries S (record entry) := by
  refine carries_bind ((Routine.log _ _ _).carries_plain hS) fun _ => ?_
  intro w u h
  have hseen := hS.same w u h
  have hhistory : u.history = w.history := by
    rw [hseen]
    rfl
  rw [run_bind_ok (EStateM.run_get w), run_bind_ok (EStateM.run_get u), hhistory]
  cases w.history with
  | memory es =>
    have hkept : Blind fun w => { w with history := .memory (es ++ [entry]) } :=
      ⟨fun _ _ => rfl, fun _ => rfl⟩
    exact .ok (hS.emit _ _ (.recorded entry) (hS.change _ hkept w u h))
  | file path =>
    have htime : u.time = w.time := by
      rw [hseen]
      rfl
    rw [htime]
    exact carries_bind ((Files.routine_appendBytes path _).carries_plain hS)
      (fun _ => hS.carries_emit _) w u h

end

end Shell

/-! ## What comes to the trace -/

/-- Events came to the trace, and the entries among them to a history in memory; no exit was asked
for. -/
structure World.Grew (w w' : World) : Prop where
  /-- No exit was asked for. -/
  exit : w'.session.exitRequested = w.session.exitRequested
  /-- A history in memory gets the entries among the events that came to the trace. -/
  told : ∃ es, w'.trace = w.trace ++ es ∧ ∀ kept, w.history = .memory kept →
    w'.history = .memory (kept ++ es.filterMap Event.entry?)

/-- What comes to the trace first and what comes then comes to the history in this order. -/
theorem World.frame_grew : Shell.Frame World.Grew where
  refl w := ⟨rfl, [], (List.append_nil _).symm, fun kept h => by simpa using h⟩
  trans := by
    rintro u v w ⟨hexit, es, htrace, hhistory⟩ ⟨hexit', fs, htrace', hhistory'⟩
    refine ⟨hexit'.trans hexit, es ++ fs, ?_, fun kept h => ?_⟩
    · rw [htrace', htrace, List.append_assoc]
    · rw [hhistory' _ (hhistory kept h), List.filterMap_append, List.append_assoc]

/-- Events that are no entries may come to the trace. -/
theorem World.grew_emitted (w : World) {es : List Event} (h : ∀ e ∈ es, e.entry? = none) :
    w.Grew (w.emitted es) :=
  ⟨rfl, es, rfl, fun kept hkept => by
    rw [List.filterMap_eq_nil_iff.mpr h, List.append_nil]
    exact hkept⟩

namespace Shell

variable {α β : Type} {Own : Shell Unit → Prop}

/-- **A routine action** adds to the trace, and asks for no exit. -/
theorem Routine.grew {a : Shell α} (h : Routine False Own a)
    (hown : ∀ a, Own a → Within World.Grew a) : Within World.Grew a := by
  have hR := World.frame_grew
  induction h with
  | pure x => exact hR.within_pure x
  | throw _ => exact hR.within_throw _
  | bind _ _ ha hg => exact hR.within_bind ha hg
  | «catch» _ _ ha hr => exact hR.within_catch ha fun f => hr f False.elim
  | look _ _ hg => exact fun w => hg w False.elim w
  | @change g h =>
    intro w
    show w.Grew (g w)
    refine ⟨congrArg Session.exitRequested (h.session w), [], ?_, fun kept hkept => ?_⟩
    · rw [h.blind.trace, List.append_nil]
    · rw [h.history, hkept, List.filterMap_nil, List.append_nil]
  | tell h => exact fun w => w.grew_emitted (List.forall_mem_singleton.mpr h)
  | own h => exact hown _ h

/-- Recording an entry adds it to the trace and to a history in memory. -/
theorem grew_record (entry : String) : Within World.Grew (record entry) := by
  have hR := World.frame_grew
  have hplain {α : Type} {a : Shell α} (h : Routine False (fun _ => False) a) : Within World.Grew a :=
    h.grew fun _ h => h.elim
  refine hR.within_bind (hplain (Routine.log _ _ _)) fun _ => ?_
  intro w
  rw [World.after_bind_ok (EStateM.run_get w)]
  cases hhistory : w.history with
  | memory es =>
    refine ⟨rfl, [.recorded entry], rfl, fun kept hkept => ?_⟩
    rw [hhistory] at hkept
    cases hkept
    rfl
  | file path =>
    -- The history stays in its file, so the entry comes to the trace only.
    refine hR.bind_at (hplain (Files.routine_appendBytes path _) w) fun _ w' hrun => ?_
    obtain ⟨files, rfl⟩ := (Files.sameButFiles_change path _).of_ok hrun
    exact ⟨rfl, [.recorded entry], rfl, fun kept hkept => nomatch hhistory.symm.trans hkept⟩

end Shell

/-! ## Ordinary faults -/

namespace Shell

/-- A run ends in an ordinary world, with an ordinary fault at most. -/
inductive EndsOrdinary {α : Type} : EStateM.Result Fault World α → Prop
  | ok {x : α} {w : World} (h : w.Ordinary) : EndsOrdinary (.ok x w)
  | error {f : Fault} {w : World} (hf : f.isOrdinary = true) (h : w.Ordinary) :
    EndsOrdinary (.error f w)

/-- An action that starts in an ordinary world ends in one, with an ordinary fault at most. -/
def StaysOrdinary {α : Type} (a : Shell α) : Prop := ∀ w, w.Ordinary → EndsOrdinary (a.run w)

variable {α β : Type} {Own : Shell Unit → Prop}

/-- An action that stays ordinary may be followed by another. -/
theorem staysOrdinary_bind {a : Shell α} {g : α → Shell β} (ha : StaysOrdinary a)
    (hg : ∀ x, StaysOrdinary (g x)) : StaysOrdinary (a >>= g) := by
  intro w hw
  have hend := ha w hw
  cases hrun : a.run w with
  | ok x w₁ =>
    rw [hrun] at hend
    cases hend with
    | ok h =>
      rw [run_bind_ok hrun]
      exact hg x w₁ h
  | error f w₁ =>
    rw [hrun] at hend
    cases hend with
    | error hf h =>
      rw [run_bind_error hrun]
      exact .error hf h

/-- A recovery needs to stay ordinary only behind ordinary faults. -/
theorem staysOrdinary_catch {a : Shell α} {recovery : Fault → Shell α} (ha : StaysOrdinary a)
    (hr : ∀ f, f.isOrdinary = true → StaysOrdinary (recovery f)) :
    StaysOrdinary (tryCatch a recovery) := by
  intro w hw
  have hend := ha w hw
  cases hrun : a.run w with
  | ok x w₁ =>
    rw [hrun] at hend
    rw [run_catch_ok hrun]
    exact hend
  | error f w₁ =>
    rw [hrun] at hend
    cases hend with
    | error hf h =>
      rw [run_catch_error hrun]
      exact hr f hf w₁ h

/-- **A routine action** stays ordinary if all worlds are known to be ordinary. -/
theorem Routine.staysOrdinary {a : Shell α} (h : Routine True Own a)
    (hown : ∀ a, Own a → StaysOrdinary a) : StaysOrdinary a := by
  induction h with
  | pure x => exact fun w hw => .ok hw
  | throw h => exact fun w hw => .error (h trivial) hw
  | bind _ _ ha hg => exact staysOrdinary_bind ha hg
  | «catch» _ _ ha hr => exact staysOrdinary_catch ha fun f hf => hr f fun _ => hf
  | look _ _ hg => exact fun w hw => hg w (fun _ => hw) w hw
  | change h => exact fun w hw => .ok (h.ordinary trivial w hw)
  | tell _ => exact fun w hw => .ok ⟨hw.registries, hw.files⟩
  | own h => exact hown _ h

/-- Storing an entry stays ordinary. -/
theorem staysOrdinary_record (entry : String) : StaysOrdinary (record entry) := by
  have hplain {α : Type} {a : Shell α} (h : Routine True (fun _ => False) a) : StaysOrdinary a :=
    h.staysOrdinary fun _ h => h.elim
  refine staysOrdinary_bind (hplain (Routine.log _ _ _)) fun _ => ?_
  intro w hw
  rw [run_bind_ok (EStateM.run_get w)]
  cases w.history with
  | memory es => exact .ok ⟨hw.registries, hw.files⟩
  | file path =>
    have hemit : StaysOrdinary (emit (.recorded entry)) := fun u hu => .ok ⟨hu.registries, hu.files⟩
    exact staysOrdinary_bind (hplain (Files.routine_appendBytes path _)) (fun _ => hemit) w hw

end Shell

end CommandShell

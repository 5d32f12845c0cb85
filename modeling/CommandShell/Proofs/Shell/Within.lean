import CommandShell.Proofs.Shell.Run

/-! # What an action may do to the world

An action stays **within** a relation when the world it ends in, by a result or by a fault, stands in
that relation to the world it starts in. Actions that are put together from actions within a reflexive
and transitive relation stay within it. What an action **gives**, and with which **faults** it ends, is
followed in the same way, and so is how it ends in all worlds of a kind (`Shell.Steadily`). -/

namespace CommandShell

/-- The world that an action leaves, however it ends. -/
def World.after {α : Type} (w : World) (a : Shell α) : World :=
  match a.run w with
  | .ok _ w' => w'
  | .error _ w' => w'

/-- How an action ends, whatever world it leaves. -/
def World.outcome {α : Type} (w : World) (a : Shell α) : Except Fault α :=
  match a.run w with
  | .ok x _ => .ok x
  | .error f _ => .error f

namespace World

variable {α : Type} {w w' : World}

/-- A run that gives something has this outcome. -/
theorem outcome_of_ok {a : Shell α} {x : α} (h : a.run w = .ok x w') : w.outcome a = .ok x := by
  rw [outcome, h]

/-- A run that ends with a fault has this outcome. -/
theorem outcome_of_error {a : Shell α} {f : Fault} (h : a.run w = .error f w') :
    w.outcome a = .error f := by
  rw [outcome, h]

/-- A run that gives something leaves its world. -/
theorem after_of_ok {a : Shell α} {x : α} (h : a.run w = .ok x w') : w.after a = w' := by
  rw [after, h]

/-- A run that ends with a fault leaves its world. -/
theorem after_of_error {a : Shell α} {f : Fault} (h : a.run w = .error f w') : w.after a = w' := by
  rw [after, h]

/-- An action that gives something leaves the world that it leaves. -/
theorem run_of_outcome_ok {a : Shell α} {x : α} (h : w.outcome a = .ok x) :
    a.run w = .ok x (w.after a) := by
  cases hrun : a.run w with
  | ok y w' =>
    rw [outcome_of_ok hrun] at h
    cases h
    rw [after_of_ok hrun]
  | error f w' =>
    rw [outcome_of_error hrun] at h
    cases h

/-- So does one that ends with a fault. -/
theorem run_of_outcome_error {a : Shell α} {f : Fault} (h : w.outcome a = .error f) :
    a.run w = .error f (w.after a) := by
  cases hrun : a.run w with
  | ok y w' =>
    rw [outcome_of_ok hrun] at h
    cases h
  | error f' w' =>
    rw [outcome_of_error hrun] at h
    cases h
    rw [after_of_error hrun]

/-- An action that gives something does so in a run. -/
theorem exists_run_of_outcome {a : Shell α} {x : α} (h : w.outcome a = .ok x) :
    ∃ w', a.run w = .ok x w' := ⟨_, run_of_outcome_ok h⟩

/-- Behind an action that gives something the outcome is that of what follows. -/
theorem outcome_bind_ok {β : Type} {a : Shell α} {x : α} (h : a.run w = .ok x w')
    (g : α → Shell β) : w.outcome (a >>= g) = w'.outcome (g x) := by
  unfold outcome
  rw [Shell.run_bind_ok h]

/-- Behind an action that gives something the world is the one that what follows leaves. -/
theorem after_bind_ok {β : Type} {a : Shell α} {x : α} (h : a.run w = .ok x w') (g : α → Shell β) :
    w.after (a >>= g) = w'.after (g x) := by
  unfold after
  rw [Shell.run_bind_ok h]

/-- What is only computed from what an action gives changes nothing else. -/
theorem outcome_bind_pure {β : Type} (a : Shell α) (g : α → β) (w : World) :
    w.outcome (a >>= fun x => pure (g x)) = (w.outcome a).map g := by
  cases hrun : a.run w with
  | ok x w' =>
    rw [outcome_bind_ok hrun, outcome_of_ok hrun]
    rfl
  | error f w' =>
    rw [outcome_of_error (Shell.run_bind_error hrun _), outcome_of_error hrun]
    rfl

/-- What is only computed from what an action gives leaves its world. -/
theorem after_bind_pure {β : Type} (a : Shell α) (g : α → β) (w : World) :
    w.after (a >>= fun x => pure (g x)) = w.after a := by
  cases hrun : a.run w with
  | ok x w' =>
    rw [after_bind_ok hrun, after_of_ok hrun]
    rfl
  | error f w' => rw [after_of_error (Shell.run_bind_error hrun _), after_of_error hrun]

end World

namespace Shell

variable {α β : Type} {R : World → World → Prop}

/-- An action whose faults are all recovered from gives something, and leaves its own world. -/
theorem run_recover_all {test : Fault → Bool} {a : Shell α} {w : World}
    (h : ∀ f w', a.run w = .error f w' → test f = true) (g : Fault → α) :
    ∃ x, (recover test a fun f => pure (g f)).run w = .ok x (w.after a) := by
  cases hrun : a.run w with
  | ok x w' =>
    rw [World.after_of_ok hrun]
    exact ⟨x, run_recover_ok hrun _ _⟩
  | error f w' =>
    rw [World.after_of_error hrun, run_recover_error hrun, if_pos (h f w' hrun)]
    exact ⟨g f, rfl⟩

/-- A recovery that changes nothing leaves the world of the action. -/
theorem after_recover (test : Fault → Bool) (a : Shell α) (x : β) (g : Fault → β)
    (u : World) :
    u.after (recover test (a >>= fun _ => pure x) fun f => pure (g f)) = u.after a := by
  cases hrun : a.run u with
  | ok y v =>
    have hpure : (a >>= fun _ => pure x : Shell β).run u = .ok x v := run_bind_ok hrun _
    rw [World.after_of_ok hrun, World.after_of_ok (run_recover_ok hpure _ _)]
  | error f v =>
    have hfault : (a >>= fun _ => pure x : Shell β).run u = .error f v := run_bind_error hrun _
    rw [World.after_of_error hrun, World.after, run_recover_error hfault]
    cases test f
    · rfl
    · rfl

/-- An action stays within a relation. -/
def Within (R : World → World → Prop) (a : Shell α) : Prop := ∀ w, R w (w.after a)

/-- A reflexive and transitive relation between worlds. -/
structure Frame (R : World → World → Prop) : Prop where
  /-- Nothing may happen. -/
  refl : ∀ w, R w w
  /-- One thing may happen after another. -/
  trans : ∀ {u v w}, R u v → R v w → R u w

/-- A run that gives something stays within the relation. -/
theorem Within.of_ok {a : Shell α} (h : Within R a) {w w' : World} {x : α}
    (hrun : a.run w = .ok x w') : R w w' := by
  rw [← World.after_of_ok hrun]
  exact h w

/-- So does one that ends with a fault. -/
theorem Within.of_error {a : Shell α} (h : Within R a) {w w' : World} {f : Fault}
    (hrun : a.run w = .error f w') : R w w' := by
  rw [← World.after_of_error hrun]
  exact h w

/-- Emitting stays within a relation that lets the event come. -/
theorem within_emit {e : Event} (h : ∀ w : World, R w (w.emitted [e])) : Within R (emit e) := h

namespace Frame

variable (hR : Frame R)

include hR

/-- What only gives something stays within every frame. -/
theorem within_pure (x : α) : Within R (pure x : Shell α) := hR.refl

/-- So does a fault. -/
theorem within_throw (f : Fault) : Within R (throw f : Shell α) := hR.refl

/-- So does looking at the world. -/
theorem within_get : Within R (get : Shell World) := hR.refl

/-- So does a computation, whatever comes of it. -/
theorem within_ofExcept {ε : Type} (fault : ε → Fault) (r : Except ε α) :
    Within R (ofExcept fault r) := by
  cases r with
  | ok x => exact hR.within_pure x
  | error e => exact hR.within_throw (fault e)

/-- One action after another, from one world: what the first one gives is known. -/
theorem bind_at {a : Shell α} {g : α → Shell β} {w : World} (ha : R w (w.after a))
    (hg : ∀ x w', a.run w = .ok x w' → R w' (w'.after (g x))) : R w (w.after (a >>= g)) := by
  cases hrun : a.run w with
  | ok x w' =>
    rw [World.after_of_ok hrun] at ha
    rw [World.after_bind_ok hrun]
    exact hR.trans ha (hg x w' hrun)
  | error f w' =>
    rw [World.after_of_error hrun] at ha
    rw [World.after_of_error (run_bind_error hrun g)]
    exact ha

/-- One action after another. -/
theorem within_bind {a : Shell α} {g : α → Shell β} (ha : Within R a) (hg : ∀ x, Within R (g x)) :
    Within R (a >>= g) := fun w => hR.bind_at (ha w) fun x w' _ => hg x w'

/-- An action with a recovery from its faults. -/
theorem within_catch {a : Shell α} {recovery : Fault → Shell α} (ha : Within R a)
    (hr : ∀ f, Within R (recovery f)) : Within R (tryCatch a recovery) := by
  intro w
  cases hrun : a.run w with
  | ok x w' =>
    rw [World.after_of_ok (run_catch_ok hrun recovery)]
    exact ha.of_ok hrun
  | error f w' =>
    have hstep : w.after (tryCatch a recovery) = w'.after (recovery f) := by
      rw [World.after, run_catch_error hrun]
      rfl
    rw [hstep]
    exact hR.trans (ha.of_error hrun) (hr f w')

/-- An action for each item of a list, with what each of them gives. -/
theorem within_mapM {l : List β} {f : β → Shell α} (h : ∀ x ∈ l, Within R (f x)) :
    Within R (l.mapM f) := by
  induction l with
  | nil =>
    rw [List.mapM_nil]
    exact hR.within_pure _
  | cons x l ih =>
    rw [List.mapM_cons]
    refine hR.within_bind (h x List.mem_cons_self) fun _ => hR.within_bind ?_ fun _ =>
      hR.within_pure _
    exact ih fun y hy => h y (List.mem_cons_of_mem _ hy)

/-- An action for each item of a list. -/
theorem within_forM {l : List β} {f : β → Shell PUnit} (h : ∀ x ∈ l, Within R (f x)) :
    Within R (l.forM f) := by
  induction l with
  | nil => exact hR.within_pure _
  | cons x l ih =>
    exact hR.within_bind (h x List.mem_cons_self) fun _ =>
      ih fun y hy => h y (List.mem_cons_of_mem _ hy)

end Frame

/-! ## What an action gives -/

/-- Whatever an action gives satisfies a predicate. -/
def Gives (P : α → Prop) (a : Shell α) : Prop := ∀ w x w', a.run w = .ok x w' → P x

/-- What is given at once is all that is given. -/
theorem gives_pure {P : α → Prop} {x : α} (h : P x) : Gives P (pure x : Shell α) := by
  intro w y w' hrun
  cases hrun
  exact h

/-- What is given in the end depends on what was given on the way. -/
theorem gives_bind {Q : α → Prop} {P : β → Prop} {a : Shell α} {g : α → Shell β} (ha : Gives Q a)
    (hg : ∀ x, Q x → Gives P (g x)) : Gives P (a >>= g) := by
  intro w y w' hrun
  cases hfirst : a.run w with
  | error f w₁ =>
    rw [run_bind_error hfirst] at hrun
    cases hrun
  | ok x w₁ =>
    rw [run_bind_ok hfirst] at hrun
    exact hg x (ha w x w₁ hfirst) w₁ y w' hrun

/-- Whatever an action gives, it gives something. -/
theorem gives_any (a : Shell α) : Gives (fun _ => True) a := fun _ _ _ _ => trivial

/-- A recovered action gives what the action or the recovery gives. -/
theorem gives_recover {P : α → Prop} {test : Fault → Bool} {a : Shell α}
    {recovery : Fault → Shell α} (ha : Gives P a) (hr : ∀ f, Gives P (recovery f)) :
    Gives P (recover test a recovery) := by
  intro w y w' hrun
  cases hfirst : a.run w with
  | ok x w₁ =>
    rw [run_recover_ok hfirst] at hrun
    cases hrun
    exact ha w _ _ hfirst
  | error f w₁ =>
    rw [run_recover_error hfirst] at hrun
    split at hrun
    · exact hr f w₁ y w' hrun
    · cases hrun

/-! ## How an action fails -/

/-- Whatever fault an action ends with satisfies a predicate. -/
def Faults (F : Fault → Prop) (a : Shell α) : Prop := ∀ w f w', a.run w = .error f w' → F f

/-- What only gives something ends with no fault. -/
theorem faults_pure {F : Fault → Prop} (x : α) : Faults F (pure x : Shell α) := by
  intro w f w' hrun
  cases hrun

/-- A fault that is raised is the only one. -/
theorem faults_throw {F : Fault → Prop} {f : Fault} (h : F f) : Faults F (throw f : Shell α) := by
  intro w f' w' hrun
  cases hrun
  exact h

/-- The faults of two actions are those of the first and of the second. -/
theorem faults_bind {F : Fault → Prop} {a : Shell α} {g : α → Shell β} (ha : Faults F a)
    (hg : ∀ x, Faults F (g x)) : Faults F (a >>= g) := by
  intro w f w' hrun
  cases hfirst : a.run w with
  | error f' w₁ =>
    rw [run_bind_error hfirst] at hrun
    cases hrun
    exact ha w f w' hfirst
  | ok x w₁ =>
    rw [run_bind_ok hfirst] at hrun
    exact hg x w₁ f w' hrun

/-- A change ends with no fault. -/
theorem faults_modify {F : Fault → Prop} (g : World → World) :
    Faults F (modify g : Shell PUnit) := by
  intro w f w' hrun
  cases hrun

/-! ## Ending in a known way -/

section

variable {I : World → Prop} {r : Except Fault α} {a : Shell α}

/-- In all worlds of a kind an action ends in the same way, and in a world of this kind. -/
def Steadily (I : World → Prop) (r : Except Fault α) (a : Shell α) : Prop :=
  ∀ w, I w → w.outcome a = r ∧ I (w.after a)

/-- A run that gives something in a world of the kind ends steadily. -/
theorem steadily_of_ok {w w' : World} {x : α} (hrun : a.run w = .ok x w') (h : I w') :
    w.outcome a = .ok x ∧ I (w.after a) := by
  rw [World.outcome, World.after_of_ok hrun, hrun]
  exact ⟨rfl, h⟩

/-- So does one that ends with a fault. -/
theorem steadily_of_error {w w' : World} {f : Fault} (hrun : a.run w = .error f w') (h : I w') :
    w.outcome a = .error f ∧ I (w.after a) := by
  rw [World.outcome, World.after_of_error hrun, hrun]
  exact ⟨rfl, h⟩

/-- What only gives something does so steadily. -/
theorem steadily_pure (x : α) : Steadily I (.ok x) (pure x : Shell α) := fun _ h => ⟨rfl, h⟩

/-- Where an action gives something steadily, it runs to a world of the kind. -/
theorem Steadily.run_ok {x : α} (h : Steadily I (.ok x) a) {w : World} (hw : I w) :
    ∃ w', a.run w = .ok x w' ∧ I w' := by
  obtain ⟨hend, hafter⟩ := h w hw
  obtain ⟨w', hrun⟩ := World.exists_run_of_outcome hend
  rw [World.after_of_ok hrun] at hafter
  exact ⟨w', hrun, hafter⟩

/-- One action after another ends as the two ends say; the second follows what the first gives. -/
theorem Steadily.bind_of (ha : Steadily I r a) {s : α → Except Fault β} {g : α → Shell β}
    (hg : ∀ x, r = .ok x → Steadily I (s x) (g x)) : Steadily I (r >>= s) (a >>= g) := by
  intro w h
  obtain ⟨hend, hafter⟩ := ha w h
  cases hrun : a.run w with
  | ok x w' =>
    rw [World.outcome, hrun] at hend
    rw [World.after_of_ok hrun] at hafter
    subst hend
    obtain ⟨hend', hafter'⟩ := hg x rfl w' hafter
    rw [World.after_bind_ok hrun]
    refine ⟨?_, hafter'⟩
    rw [World.outcome, run_bind_ok hrun]
    exact hend'
  | error f w' =>
    rw [World.outcome, hrun] at hend
    rw [World.after_of_error hrun] at hafter
    subst hend
    exact steadily_of_error (run_bind_error hrun g) hafter

/-- Actions that end steadily may follow each other. -/
theorem Steadily.bind (ha : Steadily I r a) {s : α → Except Fault β} {g : α → Shell β}
    (hg : ∀ x, Steadily I (s x) (g x)) : Steadily I (r >>= s) (a >>= g) :=
  ha.bind_of fun x _ => hg x

/-- A loop ends steadily if each of its rounds does. -/
theorem steadily_mapM {γ : Type} {l : List γ} {s : γ → Except Fault α} {g : γ → Shell α}
    (h : ∀ x ∈ l, Steadily I (s x) (g x)) : Steadily I (l.mapM s) (l.mapM g) := by
  induction l with
  | nil => exact steadily_pure []
  | cons x l ih =>
    rw [List.mapM_cons, List.mapM_cons]
    have htail := ih fun y hy => h y (List.mem_cons_of_mem _ hy)
    exact (h x List.mem_cons_self).bind fun _ => htail.bind fun _ => steadily_pure _

end

end Shell

end CommandShell

import CommandShell.Proofs.Shell.Within

/-! # What carries over from world to world

An action **carries over** from one world to another if it ends in the other as it ends in the one
(`Shell.Carries`). Actions that are put together from such actions carry over. -/

namespace CommandShell

namespace Shell

variable {α β : Type} {S : World → World → Prop}

/-- Two runs end alike: with the same, in worlds that stand in a relation. -/
inductive SameEnd (S : World → World → Prop) :
    EStateM.Result Fault World α → EStateM.Result Fault World α → Prop
  | ok {x : α} {w u : World} (h : S w u) : SameEnd S (.ok x w) (.ok x u)
  | error {f : Fault} {w u : World} (h : S w u) : SameEnd S (.error f w) (.error f u)

/-- An action carries over between worlds: as it ends in one it ends in the other. -/
def Carries (S : World → World → Prop) (a : Shell α) : Prop :=
  ∀ w u, S w u → SameEnd S (a.run w) (a.run u)

/-- Two actions match: from related worlds they end alike. An action that matches itself carries over. -/
def Matches (S : World → World → Prop) (a b : Shell α) : Prop :=
  ∀ w u, S w u → SameEnd S (a.run w) (b.run u)

/-- Runs that end alike leave related worlds. -/
theorem SameEnd.after {a b : Shell α} {w u : World} (h : SameEnd S (a.run w) (b.run u)) :
    S (w.after a) (u.after b) := by
  unfold World.after
  generalize a.run w = r at h
  generalize b.run u = r' at h
  cases h with
  | ok h => exact h
  | error h => exact h

/-- Runs that end alike give the same or end with the same fault. -/
theorem SameEnd.outcome {a b : Shell α} {w u : World} (h : SameEnd S (a.run w) (b.run u)) :
    w.outcome a = u.outcome b := by
  unfold World.outcome
  generalize a.run w = r at h
  generalize b.run u = r' at h
  cases h with
  | ok h => rfl
  | error h => rfl

/-- Actions that match may be followed by actions that match, whatever is given to them. -/
theorem matches_bind {a b : Shell α} {g h : α → Shell β} (hab : Matches S a b)
    (hgh : ∀ x, Matches S (g x) (h x)) : Matches S (a >>= g) (b >>= h) := by
  intro w u hw
  have hend := hab w u hw
  -- Ends that match are both values or both faults, so two of the four cases are void.
  cases ha : a.run w with
  | ok x w₁ =>
    cases hb : b.run u with
    | ok y u₁ =>
      rw [ha, hb] at hend
      cases hend with
      | ok h₁ =>
        rw [run_bind_ok ha, run_bind_ok hb]
        exact hgh x w₁ u₁ h₁
    | error f u₁ =>
      rw [ha, hb] at hend
      exact nomatch hend
  | error f w₁ =>
    cases hb : b.run u with
    | ok y u₁ =>
      rw [ha, hb] at hend
      exact nomatch hend
    | error f' u₁ =>
      rw [ha, hb] at hend
      cases hend with
      | error h₁ =>
        rw [run_bind_error ha, run_bind_error hb]
        exact .error h₁

/-- What gives something in one world gives it in the other, and leaves related worlds. -/
theorem Carries.of_ok {a : Shell α} (ha : Carries S a) {w u w' : World} {x : α} (h : S w u)
    (hrun : a.run w = .ok x w') : ∃ u', a.run u = .ok x u' ∧ S w' u' := by
  have hend := ha w u h
  rw [hrun] at hend
  cases hu : a.run u with
  | ok y u' =>
    rw [hu] at hend
    cases hend with
    | ok h' => exact ⟨u', rfl, h'⟩
  | error f u' =>
    rw [hu] at hend
    exact nomatch hend

/-- What ends with a fault in one world ends with it in the other, and leaves related worlds. -/
theorem Carries.of_error {a : Shell α} (ha : Carries S a) {w u w' : World} {f : Fault} (h : S w u)
    (hrun : a.run w = .error f w') : ∃ u', a.run u = .error f u' ∧ S w' u' := by
  have hend := ha w u h
  rw [hrun] at hend
  cases hu : a.run u with
  | ok y u' =>
    rw [hu] at hend
    exact nomatch hend
  | error f' u' =>
    rw [hu] at hend
    cases hend with
    | error h' => exact ⟨u', rfl, h'⟩

/-- What only gives something carries over. -/
theorem carries_pure (x : α) : Carries S (pure x : Shell α) := fun _ _ h => .ok h

/-- Actions that carry over may follow each other. -/
theorem carries_bind {a : Shell α} {g : α → Shell β} (ha : Carries S a)
    (hg : ∀ x, Carries S (g x)) : Carries S (a >>= g) := matches_bind ha hg

/-- An action carries over with its recovery if both do. -/
theorem carries_catch {a : Shell α} {recovery : Fault → Shell α} (ha : Carries S a)
    (hr : ∀ f, Carries S (recovery f)) : Carries S (tryCatch a recovery) := by
  intro w u h
  cases hfirst : a.run w with
  | ok x w₁ =>
    obtain ⟨u₁, hfirst', h₁⟩ := ha.of_ok h hfirst
    rw [run_catch_ok hfirst, run_catch_ok hfirst']
    exact .ok h₁
  | error f w₁ =>
    obtain ⟨u₁, hfirst', h₁⟩ := ha.of_error h hfirst
    rw [run_catch_error hfirst, run_catch_error hfirst']
    exact hr f w₁ u₁ h₁

/-- Raising a fault carries over. -/
theorem carries_throw (f : Fault) : Carries S (throw f : Shell α) := fun _ _ h => .error h

/-- A loop carries over if each of its rounds does. -/
theorem carries_mapM {l : List β} {f : β → Shell α} (h : ∀ x ∈ l, Carries S (f x)) :
    Carries S (l.mapM f) := by
  induction l with
  | nil =>
    rw [List.mapM_nil]
    exact carries_pure _
  | cons x l ih =>
    rw [List.mapM_cons]
    have hrest := ih fun y hy => h y (List.mem_cons_of_mem _ hy)
    exact carries_bind (h x List.mem_cons_self) fun _ => carries_bind hrest fun _ => carries_pure _

end Shell

end CommandShell

import CommandShell.Registry

/-! # Redirected registries

Where a redirection leads is a matter of the redirections alone, and not of what the registries hold
(`target?_congr`). A registry that is redirected to one that is not receives nothing itself: what is
added to it goes to the other (`target?_enter`). Entering and leaving such a redirection leaves the
other registry as it is (`redirect?_enter`, `redirect?_leave`), and leaving undoes what entering did
(`redirect?_leave_enter`). -/

namespace CommandShell.Registries

variable {rs rs' : Registries} {i j : RegistryId}

/-- Setting a registry leaves the others. -/
theorem get_set (rs : Registries) (i j : RegistryId) (r : Registry) :
    (rs.set i r).get j = if i = j then r else rs.get j := by
  unfold set get
  simp only [Table.get?_put]
  split
  · rfl
  · rfl

/-- Entering a redirection moves no entries. -/
theorem get_enter (rs : Registries) (i target j : RegistryId) :
    (rs.enter i target).2.get j = rs.get j := by
  unfold enter
  split
  · rfl
  · rfl

/-- Entering a redirection makes no entries. -/
theorem made_enter (rs : Registries) (i target : RegistryId) :
    (rs.enter i target).2.made = rs.made := by
  unfold enter
  split
  · rfl
  · rfl

/-- Leaving a redirection moves no entries. -/
theorem get_leave (rs : Registries) (r : Redirection) (j : RegistryId) :
    (rs.leave r).get j = rs.get j := by
  unfold leave
  split
  · cases r.previous with
    | none => rfl
    | some k => rfl
  · rfl

/-- Where a chain ends depends on the redirections alone. -/
theorem chainEnd_congr (h : rs'.redirects = rs.redirects) (links : Nat) (i : RegistryId) :
    rs'.chainEnd links i = rs.chainEnd links i := by
  have hredirect (i : RegistryId) : rs'.redirect? i = rs.redirect? i := by
    unfold redirect?
    rw [h]
  induction links generalizing i with
  | zero => rw [chainEnd, chainEnd, hredirect]
  | succ links ih =>
    rw [chainEnd, chainEnd, hredirect]
    cases rs.redirect? i with
    | none => rfl
    | some j => exact ih j

/-- Where what is added goes does not depend on what the registries hold. -/
theorem target?_congr (h : rs'.redirects = rs.redirects) (i : RegistryId) :
    rs'.target? i = rs.target? i := by
  unfold target?
  rw [h, chainEnd_congr h]

/-- A registry that is not redirected is the end of its own chain. -/
theorem chainEnd_of_redirect?_none (h : rs.redirect? i = none) (links : Nat) :
    rs.chainEnd links i = some i := by
  unfold chainEnd
  rw [h]

/-- What is added to a registry that is not redirected stays there. -/
theorem target?_of_redirect?_none (h : rs.redirect? i = none) : rs.target? i = some i :=
  chainEnd_of_redirect?_none h _

/-- Redirecting one registry leaves the redirections of the others. -/
theorem redirect?_setRedirect_of_ne (h : i ≠ j) (rs : Registries) (target : Option RegistryId) :
    (rs.setRedirect i target).redirect? j = rs.redirect? j := by
  unfold redirect? setRedirect
  cases target with
  | none => exact (rs.redirects.get?_remove i j).trans (if_neg h)
  | some k => exact (rs.redirects.get?_put i j k).trans (if_neg h)

/-- A registry is redirected where it was redirected last. -/
theorem redirect?_setRedirect_self (rs : Registries) (i : RegistryId) (target : Option RegistryId) :
    (rs.setRedirect i target).redirect? i = target := by
  unfold redirect? setRedirect
  cases target with
  | none => exact rs.redirects.get?_remove_self i
  | some k => exact rs.redirects.get?_put_self i k

/-- Redirecting to a registry does not redirect this one. -/
theorem redirect?_enter (h : rs.redirect? j = none) (i : RegistryId) :
    (rs.enter i j).2.redirect? j = none := by
  unfold enter
  split
  · exact h
  · rename_i hne
    exact (redirect?_setRedirect_of_ne (Ne.symm hne) rs _).trans h

/-- Leaving a redirection to a registry does not touch the redirection of that registry itself. -/
theorem redirect?_leave (rs rs' : Registries) (i j : RegistryId) :
    (rs'.leave (rs.enter i j).1).redirect? j = rs'.redirect? j := by
  unfold enter leave
  split
  · rfl
  · rename_i hne
    exact redirect?_setRedirect_of_ne (Ne.symm hne) rs' _

/-- A redirection that was entered is undone by leaving it, if every registry is redirected then as it was
when it had been entered. -/
theorem redirect?_leave_of_forall (h : ∀ k, rs'.redirect? k = (rs.enter i j).2.redirect? k)
    (k : RegistryId) : (rs'.leave (rs.enter i j).1).redirect? k = rs.redirect? k := by
  have hmeanwhile := h k
  revert hmeanwhile
  unfold enter leave
  split
  · exact id
  · intro hmeanwhile
    by_cases hk : i = k
    · subst hk
      exact redirect?_setRedirect_self rs' i _
    · rw [redirect?_setRedirect_of_ne hk] at hmeanwhile
      exact (redirect?_setRedirect_of_ne hk rs' _).trans hmeanwhile

/-- A redirection that was entered is undone by leaving it, if the redirections stay meanwhile. -/
theorem redirect?_leave_enter (h : rs'.redirects = (rs.enter i j).2.redirects) (k : RegistryId) :
    (rs'.leave (rs.enter i j).1).redirect? k = rs.redirect? k :=
  redirect?_leave_of_forall (fun k => by rw [redirect?, redirect?, h]) k

/-- What is added to a redirected registry goes to the other one. -/
theorem target?_enter (h : rs.redirect? j = none) (i : RegistryId) :
    (rs.enter i j).2.target? i = some j := by
  have hend := redirect?_enter h i
  unfold enter at hend ⊢
  split
  · rename_i hself
    rw [← hself]
    exact target?_of_redirect?_none h
  · rename_i hne
    rw [if_neg hne] at hend
    have hlink : (rs.setRedirect i (some j)).redirect? i = some j := rs.redirects.get?_put_self i j
    have hsize : (rs.setRedirect i (some j)).redirects.size ≠ 0 := by
      intro hzero
      have hnil := List.length_eq_zero_iff.mp hzero
      unfold redirect? Table.get? at hlink
      rw [hnil] at hlink
      exact nomatch hlink
    obtain ⟨links, hlinks⟩ := Nat.exists_eq_succ_of_ne_zero hsize
    unfold target?
    rw [hlinks, chainEnd, hlink]
    exact chainEnd_of_redirect?_none hend links

end CommandShell.Registries

import CommandShell.Proofs.Loader.Search
import CommandShell.Proofs.Registry.Listing
import Mathlib.Data.List.Chain
import Mathlib.Data.List.Nodup
import Mathlib.Logic.Relation

/-! # Nested redirections

The redirections of registries are links from one registry to the next. Where the links that go out from a
registry run into no circle, they end at one registry that is not redirected (`Registries.EndsAt`), and this
is the one that additions go to (`Registries.target?_eq_some_iff`): a chain without circle visits no registry
twice, so it is no longer than there are redirections. Registries are used in a nested way if every part
during which one is redirected ends before the part around it does, be it by a fault (`Registries.Use`). Then
all redirections are as they were once a part has ended (`Registries.Use.redirect?_after`). -/

namespace CommandShell.Registries

variable {rs : Registries} {i j k : RegistryId} {w : World}

/-! ## Chains of redirections -/

/-- One registry is redirected to another. -/
def Link (rs : Registries) (i j : RegistryId) : Prop := rs.redirect? i = some j

/-- The redirections run in no circle. -/
def Acyclic (rs : Registries) : Prop := ∀ i, ¬Relation.TransGen rs.Link i i

/-- The chain of redirections from a registry **ends at** another one, which is not redirected. -/
structure EndsAt (rs : Registries) (i j : RegistryId) : Prop where
  /-- The redirections lead there. -/
  chain : Relation.ReflTransGen rs.Link i j
  /-- They lead no further. -/
  last : rs.redirect? j = none

/-- A registry is redirected to one other at most. -/
theorem Link.unique (h : rs.Link i j) (h' : rs.Link i k) : j = k :=
  Option.some.inj (h.symm.trans h')

/-- A chain that ends somewhere ends there from one link further back as well. -/
theorem EndsAt.of_link (h : rs.Link i k) (hk : rs.EndsAt k j) : rs.EndsAt i j :=
  ⟨hk.chain.head h, hk.last⟩

/-- What a registry is redirected to has the same end. -/
theorem EndsAt.step (h : rs.EndsAt i j) (hk : rs.Link i k) : rs.EndsAt k j := by
  rcases h.chain.cases_head with rfl | ⟨k', hk', hchain⟩
  · exact nomatch h.last.symm.trans hk
  · obtain rfl := hk.unique hk'
    exact ⟨hchain, h.last⟩

/-- A chain ends at one registry only. -/
theorem EndsAt.unique (h : rs.EndsAt i j) (h' : rs.EndsAt i k) : j = k := by
  obtain ⟨hchain, hlast⟩ := h
  induction hchain using Relation.ReflTransGen.head_induction_on with
  | refl =>
    rcases h'.chain.cases_head with rfl | ⟨_, hlink, _⟩
    · rfl
    · exact nomatch hlast.symm.trans hlink
  | head hlink _ ih => exact ih (h'.step hlink)

/-- Whatever a circle leads to is in a circle. -/
theorem circle_of_chain (hcircle : Relation.TransGen rs.Link i i)
    (h : Relation.ReflTransGen rs.Link i j) : Relation.TransGen rs.Link j j := by
  induction h with
  | refl => exact hcircle
  | tail _ hlink ih =>
    -- The link is the one that the circle goes on with.
    obtain ⟨_, hnext, hback⟩ := Relation.TransGen.head'_iff.mp ih
    obtain rfl := hlink.unique hnext
    exact .tail' hback hlink

/-- A chain that ends comes into no circle. -/
theorem EndsAt.not_circle (h : rs.EndsAt i j) (hk : Relation.ReflTransGen rs.Link i k) :
    ¬Relation.TransGen rs.Link k k := by
  have hends : rs.EndsAt k j := by
    induction hk with
    | refl => exact h
    | tail _ hlink ih => exact ih.step hlink
  intro hcircle
  obtain ⟨_, hlink, _⟩ := Relation.TransGen.head'_iff.mp (circle_of_chain hcircle hends.chain)
  exact nomatch h.last.symm.trans hlink

/-! ## Where additions go -/

/-- The end that is found by following redirections is the end of the chain. -/
theorem endsAt_of_chainEnd {links : Nat} (h : rs.chainEnd links i = some j) : rs.EndsAt i j := by
  induction links generalizing i with
  | zero =>
    unfold chainEnd at h
    cases hlink : rs.redirect? i with
    | none =>
      rw [hlink] at h
      cases h
      exact ⟨.refl, hlink⟩
    | some k =>
      rw [hlink] at h
      cases h
  | succ links ih =>
    unfold chainEnd at h
    cases hlink : rs.redirect? i with
    | none =>
      rw [hlink] at h
      cases h
      exact ⟨.refl, hlink⟩
    | some k =>
      rw [hlink] at h
      exact .of_link hlink (ih h)

/-- Links that have not ended after so many passed one more registry that is redirected. -/
theorem exists_chain_of_chainEnd {links : Nat} (h : rs.chainEnd links i = none) :
    ∃ is, is.length = links ∧ (i :: is).IsChain rs.Link ∧ ∀ k ∈ i :: is, k ∈ rs.redirects.keys := by
  induction links generalizing i with
  | zero =>
    unfold chainEnd at h
    cases hlink : rs.redirect? i with
    | none =>
      rw [hlink] at h
      cases h
    | some k =>
      refine ⟨[], rfl, .singleton i, List.forall_mem_singleton.mpr ?_⟩
      exact Table.mem_keys_iff.mpr ⟨k, hlink⟩
  | succ links ih =>
    unfold chainEnd at h
    cases hlink : rs.redirect? i with
    | none =>
      rw [hlink] at h
      cases h
    | some k =>
      rw [hlink] at h
      obtain ⟨is, hlength, hchain, hkeys⟩ := ih h
      refine ⟨k :: is, congrArg (· + 1) hlength, .cons_cons hlink hchain, ?_⟩
      exact List.forall_mem_cons.mpr ⟨Table.mem_keys_iff.mpr ⟨k, hlink⟩, hkeys⟩

/-- **Links that do not end run into a circle**: there are not enough redirections for so many different
registries. -/
theorem exists_circle_of_target? (h : rs.target? i = none) :
    ∃ k, Relation.ReflTransGen rs.Link i k ∧ Relation.TransGen rs.Link k k := by
  obtain ⟨is, hlength, hchain, hkeys⟩ := exists_chain_of_chainEnd h
  have hreached : (i :: is).Pairwise (Relation.TransGen rs.Link) :=
    List.isChain_iff_pairwise.mp (hchain.imp fun _ _ hlink => .single hlink)
  have htwice : ¬(i :: is).Nodup := by
    intro hnodup
    have hle := (hnodup.subperm hkeys).length_le
    rw [List.length_cons, hlength, Table.keys, List.length_map] at hle
    exact absurd hle (Nat.not_succ_le_self _)
  obtain ⟨k, hk⟩ : ∃ k, [k, k].Sublist (i :: is) := by
    simpa [List.nodup_iff_sublist] using htwice
  have hcircle : Relation.TransGen rs.Link k k :=
    List.rel_of_pairwise_cons (hreached.sublist hk) List.mem_cons_self
  refine ⟨k, ?_, hcircle⟩
  rcases List.mem_cons.mp (hk.subset List.mem_cons_self) with rfl | hmem
  · exact .refl
  · exact (List.rel_of_pairwise_cons hreached hmem).to_reflTransGen

/-- **Additions go to the end of the chain**, if there is one. -/
theorem target?_eq_some_iff : rs.target? i = some j ↔ rs.EndsAt i j := by
  constructor
  · exact endsAt_of_chainEnd
  · intro h
    cases htarget : rs.target? i with
    | some k => rw [h.unique (endsAt_of_chainEnd htarget)]
    | none =>
      obtain ⟨k, hk, hcircle⟩ := exists_circle_of_target? htarget
      exact absurd hcircle (h.not_circle hk)

/-- Without a circle every chain ends. -/
theorem Acyclic.exists_endsAt (h : rs.Acyclic) (i : RegistryId) : ∃ j, rs.EndsAt i j := by
  cases htarget : rs.target? i with
  | some j => exact ⟨j, endsAt_of_chainEnd htarget⟩
  | none =>
    obtain ⟨k, -, hcircle⟩ := exists_circle_of_target? htarget
    exact absurd hcircle (h k)

/-! ## Nested use -/

/-- Registries in use, **well nested**: calls on them and faults, one after the other, parts whose faults are
passed over, and parts during which a registry is redirected. -/
inductive Use
  | nothing
  | call (i : RegistryId) (call : Registry.Call)
  | fail (f : Fault)
  | andThen (first second : Use)
  | attempt (part : Use)
  | redirected (i target : RegistryId) (part : Use)

namespace Use

/-- Use registries. A redirection is left when its part ends, whether or not by a fault. -/
def perform : Use → Shell Unit
  | nothing => pure ()
  | call i c => c.perform i
  | fail f => throw f
  | andThen first second => do
    first.perform
    second.perform
  | attempt part => tryCatch part.perform fun _ => pure ()
  | redirected i target part => Shell.redirected i target part.perform

end Use

/-- All registries are redirected as they were. -/
def SameLinks (w w' : World) : Prop := ∀ k, w'.registries.redirect? k = w.registries.redirect? k

/-- Actions that leave all redirections may be put together. -/
theorem frame_sameLinks : Shell.Frame SameLinks where
  refl _ _ := rfl
  trans h h' k := (h' k).trans (h k)

/-- A call on a registry redirects none. -/
theorem sameLinks_perform (i : RegistryId) (call : Registry.Call) :
    Shell.Within SameLinks (call.perform i) := by
  have hadd (u : World) (e : Entry) : SameLinks u (u.after (Shell.add i e)) := by
    unfold Shell.add Registries.add?
    rw [World.after_bind_ok (EStateM.run_get u)]
    cases u.registries.target? i with
    | none => exact frame_sameLinks.refl u
    | some j => exact fun _ => rfl
  intro w
  cases call with
  | register d handler =>
    show SameLinks w (w.after (Shell.register i (d.entry handler)))
    rw [World.after_register]
    exact hadd (w.numbering _) _
  | add e => exact hadd w e
  | unregister name => exact fun _ => rfl

/-- **A nested use** leaves all registries redirected as they were, however it ends. -/
theorem Use.redirect?_after (use : Use) : Shell.Within SameLinks use.perform := by
  have hR := frame_sameLinks
  induction use with
  | nothing => exact hR.within_pure _
  | call i call => exact sameLinks_perform i call
  | fail f => exact hR.within_throw f
  | andThen _ _ hfirst hsecond => exact hR.within_bind hfirst fun _ => hsecond
  | attempt _ ih => exact hR.within_catch ih fun _ => hR.within_pure _
  | redirected i target part ih =>
    intro w
    rw [Use.perform, World.after_redirected]
    -- What the part leaves is what it found, and that is what is undone.
    exact redirect?_leave_of_forall (ih { w with registries := (w.registries.enter i target).2 })

/-! ## What an addition changes -/

/-- A registry **receives** an entry, and nothing else in the world changes. -/
structure Receives (w w' : World) (j : RegistryId) (e : Entry) : Prop where
  /-- The entry is added to the registry. -/
  received : w'.registries.get j = (w.registries.get j).add e
  /-- The other registries hold what they held. -/
  others : ∀ k, k ≠ j → w'.registries.get k = w.registries.get k
  /-- All registries are redirected as they were. -/
  links : SameLinks w w'
  /-- Nothing but the registries changes. -/
  rest : w' = { w with registries := w'.registries }

/-- An entry is received by the registry at the end of the chain, and the addition does not fail. -/
theorem receives_add (h : w.registries.EndsAt i j) (e : Entry) :
    ∃ w', (Shell.add i e).run w = .ok () w' ∧ Receives w w' j e := by
  refine ⟨_, Shell.run_add (target?_eq_some_iff.mpr h) e, ?_, fun k hk => ?_, fun _ => rfl, rfl⟩
  · exact (get_set _ j j _).trans (if_pos rfl)
  · exact (get_set _ j k _).trans (if_neg (Ne.symm hk))

/-- An entry that is registered gets its number and is received. -/
theorem receives_register (h : w.registries.EndsAt i j) (e : Entry) :
    ∃ w', (Shell.register i e).run w = .ok () w' ∧ Receives w w' j (w.registries.number e).1 := by
  have hnumber : (w.numbering e).registries.EndsAt i j := ⟨h.chain, h.last⟩
  obtain ⟨w', hrun, hreceives⟩ := receives_add hnumber (w.registries.number e).1
  exact ⟨w', (Shell.run_register_eq i e w).trans hrun, hreceives.received, hreceives.others,
    hreceives.links, hreceives.rest⟩

/-- **Redirections nest.** However a part ends during which a registry is redirected, and whatever is done in
it, afterwards every registry is redirected as it was before. And whenever the redirections run in no circle, an
entry that is added to a registry, or registered with it, comes to exactly one registry, which is at the end of
the chain of redirections, and nothing else changes. -/
theorem redirections_nest (w : World) :
    (∀ i target part k, (w.after (Use.redirected i target part).perform).registries.redirect? k
      = w.registries.redirect? k) ∧
    (w.registries.Acyclic → ∀ i, ∃ j, w.registries.EndsAt i j ∧ ∀ e,
      (∃ w', (Shell.add i e).run w = .ok () w' ∧ Receives w w' j e) ∧
      ∃ w', (Shell.register i e).run w = .ok () w' ∧ Receives w w' j (w.registries.number e).1) := by
  constructor
  · intro i target part k
    exact Use.redirect?_after (.redirected i target part) w k
  · intro h i
    obtain ⟨j, hj⟩ := h.exists_endsAt i
    exact ⟨j, hj, fun e => ⟨receives_add hj e, receives_register hj e⟩⟩

/-- A world in which a registry is redirected to a second one, and this one to a third. -/
def chained : World :=
  { (default : World) with registries :=
      ⟨{}, ⟨[(.global, .named "a"), (.named "a", .named "b")]⟩, 0⟩ }

/-- The chain of three registries runs in no circle. -/
theorem acyclic_chained : chained.registries.Acyclic := by
  have hb : chained.registries.EndsAt (.named "b") (.named "b") := ⟨.refl, rfl⟩
  have ha : chained.registries.EndsAt (.named "a") (.named "b") := .of_link rfl hb
  have hglobal : chained.registries.EndsAt .global (.named "b") := .of_link rfl ha
  intro i hcircle
  obtain ⟨j, hlink, -⟩ := Relation.TransGen.head'_iff.mp hcircle
  have hmem : (i, j) ∈ chained.registries.redirects.toList := Table.mem_of_get? hlink
  rcases List.mem_cons.mp hmem with heq | hmem
  · cases heq
    exact hglobal.not_circle .refl hcircle
  · cases List.mem_singleton.mp hmem
    exact ha.not_circle .refl hcircle

/-- An entry that is added to the first of them comes to the third. -/
theorem redirections_nest_chained :
    chained.registries.Acyclic ∧ ∃ w', (Shell.add .global clockStop).run chained = .ok () w' ∧
      (w'.registries.get (.named "b")).find "stop" = .ok (some clockStop) ∧
      (w'.registries.get .global).find "stop" = .ok none := by
  obtain ⟨j, hends, hadd⟩ := (redirections_nest chained).2 acyclic_chained .global
  have hchain : chained.registries.EndsAt .global (.named "b") :=
    .of_link (k := .named "a") rfl (.of_link (k := .named "b") rfl ⟨.refl, rfl⟩)
  obtain rfl := hends.unique hchain
  obtain ⟨w', hrun, hreceives⟩ := (hadd clockStop).1
  refine ⟨acyclic_chained, w', hrun, ?_, ?_⟩
  · rw [hreceives.received]
    rfl
  · rw [hreceives.others .global (by decide)]
    rfl

end CommandShell.Registries

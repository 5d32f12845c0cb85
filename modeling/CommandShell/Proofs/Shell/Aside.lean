import CommandShell.Proofs.Shell.Tending

/-! # What leaves the finding of commands aside

Recording an entry, changing settings and calling one of the commands that come with the shell, but for
the one that loads modules, leave **aside** all by which commands are found and lines are read
(`World.Aside`): the registries, the loader, the session, what handlers are given, and who decides what
is internal. None of them misses a command (`aside_record`, `Builtin.aside_call`). -/

namespace CommandShell

/-- Nothing changed by which commands are found and lines are read. -/
structure World.Aside (w w' : World) : Prop where
  /-- The registries are the same. -/
  registries : w'.registries = w.registries
  /-- The loader is the same. -/
  loader : w'.loader = w.loader
  /-- The session is the same. -/
  session : w'.session = w.session
  /-- Handlers are given the same. -/
  context : w'.context = w.context
  /-- Whether a name is internal is decided by the same. -/
  classifier : w'.classifier = w.classifier

/-- Reports leave what the commands of the shell leave aside. -/
theorem World.reporting_aside : Shell.Frame.Reporting World.Aside where
  refl _ := ⟨rfl, rfl, rfl, rfl, rfl⟩
  trans h h' := ⟨h'.registries.trans h.registries, h'.loader.trans h.loader,
    h'.session.trans h.session, h'.context.trans h.context, h'.classifier.trans h.classifier⟩
  emitted _ _ := ⟨rfl, rfl, rfl, rfl, rfl⟩

/-- Nothing that the commands of the shell tend to is among it. -/
theorem World.tending_aside : Shell.Frame.Tending World.Aside :=
  { World.reporting_aside.toPrinting with
    files := fun _ _ => ⟨rfl, rfl, rfl, rfl, rfl⟩
    cwd := fun _ _ => ⟨rfl, rfl, rfl, rfl, rfl⟩
    previous := fun _ _ => ⟨rfl, rfl, rfl, rfl, rfl⟩
    settings := fun _ _ => ⟨rfl, rfl, rfl, rfl, rfl⟩ }

open World

/-- Recording an entry leaves aside what commands are found by. -/
theorem aside_record (entry : String) : Shell.Heeds Aside (record entry) := by
  have hR := reporting_aside
  have hrecorded := hR.heeds_emit (.recorded entry)
  have hfile (path : Path) (data : List UInt8) : Shell.Heeds Aside
      (Files.appendBytes path data >>= fun _ => Shell.emit (.recorded entry)) :=
    hR.heeds_bind (Files.heeds_change tending_aside path _) fun _ => hrecorded
  refine hR.heeds_bind (hR.heeds_log _ _ _) fun _ => Shell.Frame.heeds_get_bind ?_ ?_
  · intro w
    cases w.history with
    | memory es => exact ⟨rfl, rfl, rfl, rfl, rfl⟩
    | file path => exact (hfile path _).within w
  · intro w f w' hrun
    cases hhistory : w.history with
    | memory es =>
      rw [hhistory] at hrun
      exact nomatch hrun
    | file path =>
      rw [hhistory] at hrun
      exact (hfile path _).faults w f w' hrun

/-- **A command that comes with the shell**, other than the one that loads modules, leaves aside what
commands are found by, and misses no command. -/
theorem Builtin.aside_call {b : Builtin} (hb : b ≠ .help) (origin : Nat) (arguments : List String) :
    Shell.Heeds Aside (b.call origin arguments) := heeds_call tending_aside hb origin arguments

end CommandShell

import CommandShell.Files
import CommandShell.Proofs.Registry.Ordinary
import CommandShell.Proofs.Shell.Carries

/-! # Routine actions

Most of what a shell does is **routine** (`Shell.Routine`): it looks at the world but neither at the trace
nor at the line of the session nor at how commands end on the host, it changes the world beside trace,
history and session, and it reports. What else an action may consist of is a parameter. Whatever reads and
writes files is routine. -/

namespace CommandShell

namespace World

/-- What routine actions do not see of a world. -/
structure Unseen where
  /-- How commands end on the host. -/
  returncodes : Table String Int
  /-- What reached the outside. -/
  trace : List Event
  /-- The line that the session took. -/
  name : Option String

/-- What routine actions do not see of this world. -/
def unseen (w : World) : Unseen := ⟨w.host.returncodes, w.trace, w.session.name⟩

/-- The world with other things unseen. -/
def behind (w : World) (x : Unseen) : World :=
  { w with
    host := { w.host with returncodes := x.returncodes }
    trace := x.trace
    session := { w.session with name := x.name } }

/-- The world with another trace, in which the session took another line. -/
def retold (w : World) (trace : List Event) (name : Option String) : World :=
  { w with trace, session := { w.session with name } }

end World

namespace Shell

/-- A change of the world that neither looks at what is unseen nor touches it. -/
structure Blind (g : World → World) : Prop where
  /-- What is unseen is not looked at, and stays. -/
  behind : ∀ w x, g (w.behind x) = (g w).behind x
  /-- What becomes of log records stays. -/
  logSink : ∀ w, (g w).logSink = w.logSink

/-- A change of the world beside trace, history and session, that does not look at what is unseen. If `K`
holds, it leaves ordinary worlds ordinary. -/
structure Local (K : Prop) (g : World → World) : Prop where
  /-- What is unseen is not looked at. -/
  blind : Blind g
  /-- The history stays. -/
  history : ∀ w, (g w).history = w.history
  /-- The session stays. -/
  session : ∀ w, (g w).session = w.session
  /-- An ordinary world stays ordinary. -/
  ordinary : K → ∀ w, w.Ordinary → (g w).Ordinary

/-- The actions that are put together from looking at the world, changing it beside trace, history and
session, reporting, and actions of a further kind. `K` says whether the world is known to be ordinary. -/
inductive Routine (K : Prop) (Own : Shell Unit → Prop) : {α : Type} → Shell α → Prop
  | pure {α : Type} (x : α) : Routine K Own (pure x : Shell α)
  | throw {α : Type} {f : Fault} (h : K → f.isOrdinary = true) : Routine K Own (throw f : Shell α)
  | bind {α β : Type} {a : Shell α} {g : α → Shell β} (ha : Routine K Own a)
    (hg : ∀ x, Routine K Own (g x)) : Routine K Own (a >>= g)
  | catch {α : Type} {a : Shell α} {recovery : Fault → Shell α} (ha : Routine K Own a)
    (hr : ∀ f, (K → f.isOrdinary = true) → Routine K Own (recovery f)) :
    Routine K Own (tryCatch a recovery)
  | look {β : Type} {g : World → Shell β} (hblind : ∀ w x, g (w.behind x) = g w)
    (hg : ∀ w, (K → w.Ordinary) → Routine K Own (g w)) : Routine K Own (get >>= g)
  | change {g : World → World} (h : Local K g) : Routine K Own (modify g)
  | tell {e : Event} (h : e.entry? = none) : Routine K Own (emit e)
  | own {a : Shell Unit} (h : Own a) : Routine K Own a

namespace Routine

variable {α β : Type} {K : Prop} {Own : Shell Unit → Prop}

/-! ## Putting actions together -/

/-- A computation is routine if its faults are ordinary. -/
theorem ofExcept {ε : Type} {fault : ε → Fault} {r : Except ε α}
    (h : ∀ e, r = .error e → K → (fault e).isOrdinary = true) :
    Routine K Own (ofExcept fault r) := by
  cases r with
  | ok x => exact .pure x
  | error e => exact .throw (h e rfl)

/-- What is made of the result of a routine action keeps it routine. -/
theorem map {a : Shell α} (g : α → β) (ha : Routine K Own a) : Routine K Own (g <$> a) := by
  rw [map_eq_pure_bind]
  exact ha.bind fun x => .pure (g x)

/-- A routine action is so with a routine recovery. -/
theorem recover {test : Fault → Bool} {a : Shell α} {recovery : Fault → Shell α}
    (ha : Routine K Own a) (hr : ∀ f, Routine K Own (recovery f)) :
    Routine K Own (recover test a recovery) := by
  refine .catch ha fun f hf => ?_
  split
  · exact hr f
  · exact .throw hf

/-- A loop that gives something is routine if each of its rounds is. -/
theorem mapM {l : List β} {f : β → Shell α} (h : ∀ x ∈ l, Routine K Own (f x)) :
    Routine K Own (l.mapM f) := by
  induction l with
  | nil =>
    rw [List.mapM_nil]
    exact .pure _
  | cons x l ih =>
    rw [List.mapM_cons]
    have htail := ih fun y hy => h y (List.mem_cons_of_mem _ hy)
    exact (h x List.mem_cons_self).bind fun _ => htail.bind fun _ => .pure _

/-- So is a loop that gives nothing. -/
theorem forM {l : List β} {f : β → Shell PUnit} (h : ∀ x ∈ l, Routine K Own (f x)) :
    Routine K Own (l.forM f) := by
  induction l with
  | nil => exact .pure _
  | cons x l ih =>
    exact (h x List.mem_cons_self).bind fun _ => ih fun y hy => h y (List.mem_cons_of_mem _ hy)

/-- Logging is routine, and what it brings to the trace is no entry. -/
theorem log (level : Level) (source : LogSource) (message : String) :
    Routine K Own (log level source message) := by
  have hline (text : String) : Routine K Own (complainLine text) := .tell rfl
  refine .bind (.tell rfl) fun _ => .look (fun _ _ => rfl) fun w _ => ?_
  split
  · exact .pure _
  · split
    · exact hline _
    · exact .pure _
  · split
    · exact .look (fun _ _ => rfl) fun w _ => hline _
    · exact .pure _

end Routine

end Shell

namespace Files

open Shell

variable {α β : Type} {K : Prop} {Own : Shell Unit → Prop}

/-- The fault of a text that names no file is ordinary. -/
theorem isOrdinary_of_fileName {t : RawText} {f : Fault} (h : fileName t = .error f) :
    f.isOrdinary = true := by
  unfold fileName at h
  split at h
  · cases h
    rfl
  · simp only at h
    split at h
    · cases h
      rfl
    · exact nomatch h

/-- What is done with an answer of the file tree may rely on it being one. -/
theorem routine_query_bind {path : Path}
    {q : FileTree → WorkingDirectory → String → Except Errno α} {g : α → Shell β}
    (hg : ∀ (w : World) name x, (K → w.Ordinary) → q w.files w.cwd name = .ok x → Routine K Own (g x)) :
    Routine K Own (query path q >>= g) := by
  unfold query
  rw [bind_assoc]
  refine .bind (.ofExcept fun f hf _ => isOrdinary_of_fileName hf) fun name => ?_
  rw [bind_assoc]
  refine .look (fun _ _ => rfl) fun w hw => ?_
  cases hanswer : q w.files w.cwd name with
  | ok x =>
    show Routine K Own (pure x >>= g)
    rw [pure_bind]
    exact hg w name x hw hanswer
  | error e =>
    show Routine K Own (throw (.system e [path.text]))
    exact .throw fun _ => rfl

/-- A query of the files is routine. -/
theorem routine_query (path : Path) (q : FileTree → WorkingDirectory → String → Except Errno α) :
    Routine K Own (query path q) := by
  rw [← bind_pure (query path q)]
  exact routine_query_bind fun _ _ x _ _ => .pure x

/-- A change of the tree that makes no module. -/
theorem routine_change (path : Path)
    {q : FileTree → WorkingDirectory → String → Except Errno FileTree}
    (hq : ∀ t cwd name t', t.Ordinary → q t cwd name = .ok t' → t'.Ordinary) :
    Routine K Own (change path q) := by
  refine routine_query_bind fun w name files hw hfiles => .change ⟨⟨fun _ _ => rfl, fun _ => rfl⟩,
    fun _ => rfl, fun _ => rfl, fun hK u hu => ⟨hu.registries, ?_⟩⟩
  exact hq _ _ _ _ (hw hK).files hfiles

/-- A question about the files is routine. -/
theorem routine_ask (path : Path) (q : FileTree → WorkingDirectory → String → Except Errno Bool) :
    Routine K Own (ask path q) := by
  unfold ask
  split
  · exact .pure false
  · refine .look (fun _ _ => rfl) fun w _ => ?_
    split
    · exact .pure _
    · split
      · exact .pure _
      · exact .throw fun _ => rfl

/-- Asking whether a path reaches anything is routine. -/
theorem routine_reaches (path : Path) : Routine K Own (reaches path) := by
  refine .look (fun _ _ => rfl) fun w _ => ?_
  split
  · exact .pure _
  · split
    · exact .pure _
    · exact .pure _

/-- Reading is routine. -/
theorem routine_readBytes (path : Path) : Routine K Own (readBytes path) :=
  routine_query_bind fun _ _ _ _ _ => .pure _

/-- Writing is routine: bytes are no code, so the files stay ordinary. -/
theorem routine_writeBytes (path : Path) (data : List UInt8) : Routine K Own (writeBytes path data) :=
  routine_change path fun _ _ _ _ ht hwrite => ht.write (by simp) hwrite

/-- So is appending. -/
theorem routine_appendBytes (path : Path) (data : List UInt8) :
    Routine K Own (appendBytes path data) :=
  routine_change path fun _ _ _ _ ht hwrite => ht.write (by simp) hwrite

/-- Making a directory is routine. -/
theorem routine_makeDirectory (path : Path) : Routine K Own (makeDirectory path) := by
  have hthere (f : Fault) (hf : K → f.isOrdinary = true) : Routine K Own (do
      if ← isDirectory path then pure () else throw f) := by
    refine .bind (routine_ask path _) fun there => ?_
    split
    · exact .pure _
    · exact .throw hf
  refine .catch (routine_change path fun _ _ _ _ ht hmake => ht.makeDirectory hmake) fun f hf => ?_
  split
  · exact .throw hf
  · exact hthere _ hf
  · exact .throw hf

/-- Making a directory with those above it is routine. -/
theorem routine_makeDirectories (path : Path) : Routine K Own (makeDirectories path) := by
  unfold makeDirectories
  refine .catch (routine_makeDirectory path) fun f hf => ?_
  split
  · split
    · exact .throw hf
    · -- The directories above have shorter paths.
      rename_i hparts
      have hshorter : path.parent.parts.length < path.parts.length := by
        have := List.length_pos_iff.mpr hparts
        simp only [Path.parent, List.length_dropLast]
        omega
      exact .bind (routine_makeDirectories path.parent) fun _ => routine_makeDirectory path
  · exact .throw hf
termination_by path.parts.length

/-- Listing a directory is routine. -/
theorem routine_list (path : Path) : Routine K Own (list path) :=
  .bind (routine_query path _) fun _ => .look (fun _ _ => rfl) fun _ _ => .pure _

/-- Asking for the working directory is routine. -/
theorem routine_currentDirectory : Routine K Own currentDirectory := by
  refine .look (fun _ _ => rfl) fun w _ => ?_
  split
  · exact .pure _
  · exact .throw fun _ => rfl

/-- Changing the working directory is routine. -/
theorem routine_changeDirectory (path : Path) : Routine K Own (changeDirectory path) :=
  .bind (routine_query path _) fun _ => .change ⟨⟨fun _ _ => rfl, fun _ => rfl⟩, fun _ => rfl,
    fun _ => rfl, fun _ _ hu => ⟨hu.registries, hu.files⟩⟩

/-- Replacing a leading tilde is routine. -/
theorem routine_expandHome (path : Path) : Routine K Own (expandHome path) := by
  unfold expandHome
  split
  · exact .pure path
  · rename_i user rest _
    refine .look (fun _ _ => rfl) fun w _ => ?_
    refine .bind (.ofExcept fun f hf _ => isOrdinary_of_fileName hf) fun user => ?_
    have hjoin (home : String) : Routine K Own
        (pure ((Path.ofString home).join ⟨"", rest⟩) : Shell Path) := .pure _
    split
    · exact .bind (.pure _) hjoin
    · split
      · exact .bind (.pure _) hjoin
      · exact .bind (.throw fun _ => rfl) hjoin

end Files

end CommandShell

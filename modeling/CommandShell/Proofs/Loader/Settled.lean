import CommandShell.Proofs.Loader.Imports
import CommandShell.Proofs.Loader.Steady
import CommandShell.Proofs.Registry.Neutral
import Mathlib.Data.List.Nodup

/-! # Loading settles nothing new

A session is `Settled` when its registry is neutral and not redirected, when the loader registers there,
when it searches absolute directories that stay as they are, and when the modules in these directories
are additive. In such a session it is settled from the start which names the registry answers once all
modules are loaded: those that it answers now and those that a module which was not tried would register
(`World.WillAnswer`). An import moves names from the one part to the other, also when it fails half way,
and nothing else does, so all worlds of the session agree on them (`World.Remains`). -/

namespace CommandShell

open World

/-! ## Adding to the registry of a session -/

namespace World

/-- Commands were added to the registry of the session, under these names at last. Beside that imports
were counted, and events reached the outside. -/
structure Grows (B : Builtin → Prop) (names : List String) (w w' : World) : Prop where
  /-- Nothing else happened. -/
  eq : w' = { w with registries := w'.registries, imports := w'.imports, trace := w'.trace }
  /-- The redirections are the same. -/
  redirects : w'.registries.redirects = w.registries.redirects
  /-- The registry stays neutral. -/
  commands : w.commands.Neutral B → w'.commands.Neutral B
  /-- It answers what it answered, and the names. -/
  answers : ∀ key, w'.commands.Answers key ↔ w.commands.Answers key ∨ key ∈ names

variable {B : Builtin → Prop} {names more : List String} {u v w : World}

/-- Adding commands leaves what handlers are given. -/
theorem Grows.context (h : Grows B names w u) : u.context = w.context := by
  rw [h.eq]

/-- Nothing was added. -/
theorem grows_of_eq (h : u = { w with imports := u.imports, trace := u.trace }) : Grows B [] w u := by
  have hregistries : u.registries = w.registries := by rw [h]
  have hcommands : u.commands = w.commands := by rw [h]; rfl
  refine ⟨by rw [hregistries]; exact h, by rw [hregistries], ?_, fun key => ?_⟩
  · rw [hcommands]
    exact id
  · rw [hcommands]
    simp

/-- Commands that are added one after the other are added together. -/
theorem Grows.trans (h : Grows B names u v) (h' : Grows B more v w) : Grows B (names ++ more) u w where
  eq := by
    rw [h'.eq, h.eq]
  redirects := h'.redirects.trans h.redirects
  commands hu := h'.commands (h.commands hu)
  answers key := by rw [h'.answers, h.answers, List.mem_append, or_assoc]

/-- What is added goes to the same registry as before. -/
theorem Grows.target? (h : Grows B names u v) {i : RegistryId}
    (htarget : u.registries.target? i = some u.context.registry) :
    v.registries.target? i = some v.context.registry := by
  rw [Registries.target?_congr h.redirects, h.context, htarget]

/-- An action adds commands under these names, whatever ordinary fault it ends with. -/
structure Adds {α : Type} (B : Builtin → Prop) (names : List String) (w : World) (a : Shell α) :
    Prop where
  /-- The commands are added. -/
  grows : Grows B names w (w.after a)
  /-- The faults are ordinary. -/
  faults : ∀ f w', a.run w = .error f w' → f.isOrdinary = true

/-- What goes on in the world that was grown adds the names of both parts. -/
theorem Adds.bind {α β : Type} {a : Shell α} {g : α → Shell β} {x : α} (hrun : a.run w = .ok x u)
    (hgrows : Grows B names w u) (h : u.Adds B more (g x)) : w.Adds B (names ++ more) (a >>= g) where
  grows := by
    rw [after_bind_ok hrun]
    exact hgrows.trans h.grows
  faults f w' hfault := by
    rw [Shell.run_bind_ok hrun] at hfault
    exact h.faults f w' hfault

/-- What is asked at first changes nothing. -/
theorem Adds.bind_asked {α β : Type} {a : Shell α} {g : α → Shell β} {x : α} (hrun : a.run w = .ok x w)
    (h : w.Adds B names (g x)) : w.Adds B names (a >>= g) :=
  .bind hrun (grows_of_eq rfl) h

/-- An action that only gives something adds no names. -/
theorem adds_pure {α : Type} (x : α) : w.Adds B [] (pure x : Shell α) :=
  ⟨grows_of_eq rfl, fun _ _ hfault => nomatch hfault⟩

/-- An action that ends with an ordinary fault, and changes nothing, adds no names. -/
theorem adds_of_error {α : Type} {a : Shell α} {f : Fault} (hrun : a.run w = .error f w)
    (h : f.isOrdinary = true) : w.Adds B [] a := by
  refine ⟨?_, fun f' w' hfault => ?_⟩
  · rw [after_of_error hrun]
    exact grows_of_eq rfl
  · rw [hrun] at hfault
    cases hfault
    exact h

/-- Raising an ordinary fault adds no names. -/
theorem adds_throw {α : Type} {f : Fault} (h : f.isOrdinary = true) :
    w.Adds B [] (throw f : Shell α) := adds_of_error rfl h

end World

section

variable {B : Builtin → Prop} {w u : World}

/-- A declaration is registered in the registry of the session. -/
theorem adds_register {i : RegistryId} (htarget : u.registries.target? i = some u.context.registry)
    {d : Declaration} {handler : Handler} (he : (d.entry handler).Neutral B) :
    ∃ v, (Shell.register i (d.entry handler)).run u = .ok () v ∧ Grows B d.names u v := by
  refine ⟨_, Shell.run_register htarget _, rfl, rfl, fun hcommands => ?_, fun key => ?_⟩
  · have hadd := hcommands.add (e := (u.registries.number (d.entry handler)).1) he
    unfold World.commands
    rw [Registries.get_set, if_pos rfl]
    exact hadd
  · unfold World.commands
    rw [Registries.get_set, if_pos rfl]
    exact Registry.answers_add_iff _ _ key

/-- The actions of an additive module add their names to the registry of the session. -/
theorem adds_runBody {body : List Action} (h : Action.addsOnly body = true)
    (htarget : u.registries.target? moduleRegistry = some u.context.registry) :
    u.Adds B (Action.names body) (Module.runBody body) := by
  induction body generalizing u with
  | nil => exact adds_pure _
  | cons action rest ih =>
    cases action with
    | raise r => exact adds_throw h
    | unknown name => exact adds_throw rfl
    | undefine name => exact nomatch h
    | define d body =>
      obtain ⟨he, hrest⟩ := Action.neutral_of_addsOnly (B := B) h
      obtain ⟨v, hrun, hgrows⟩ := adds_register htarget he
      exact .bind hrun hgrows (ih hrest (hgrows.target? htarget))
    | _ => exact ih h htarget

/-- **An additive module** registers its names, whether or not it fails half way. -/
theorem adds_runModule {m : Module} (h : m.Additive B) (directory : String)
    (htarget : u.registries.target? moduleRegistry = some u.context.registry) :
    u.Adds B m.names (m.run directory) := by
  cases m with
  | unreadable => exact adds_throw rfl
  | script body =>
    have hgrows : Grows B [] u (u.emitted [.imported directory]) := grows_of_eq rfl
    exact .bind (Shell.run_emit _ u) hgrows (adds_runBody h (hgrows.target? htarget))
  | builtin b =>
    let counted := { u with imports := u.imports + 1 }
    have hgrows : Grows B [] u counted := grows_of_eq rfl
    have he : (b.declaration.entry (.builtin b u.imports)).Neutral B := h
    obtain ⟨v, hrun, hregistered⟩ := adds_register (hgrows.target? htarget) he
    have hall : (Module.run directory (.builtin b)).run u = .ok () v := hrun
    refine ⟨?_, fun f w' hfault => ?_⟩
    · rw [after_of_ok hall]
      exact hgrows.trans hregistered
    · rw [hall] at hfault
      exact nomatch hfault

end

/-! ## Settled sessions -/

namespace World

/-- The modules that the loader finds, if the search ends well. -/
def found (w : World) : List (String × Path) :=
  match Loader.index.run w with
  | .ok t _ => t.toList
  | .error _ _ => []

/-- The names that importing a file registers. -/
def importNames (w : World) (file : Path) : List String :=
  match Files.fileName file.text with
  | .error _ => []
  | .ok name =>
    match w.files.read w.cwd name with
    | .ok (_, .code m) => m.names
    | _ => []

/-- The names that the modules found in `w` would register that were not tried in `u`. -/
def pending (w u : World) : List String :=
  (w.found.filter fun f => !u.loader.attempted.contains f.1).flatMap fun f => w.importNames f.2

/-- The registry answers a name, or will answer it once all modules are loaded. -/
def WillAnswer (w u : World) (key : String) : Prop := u.commands.Answers key ∨ key ∈ w.pending u

instance (w u : World) (key : String) : Decidable (w.WillAnswer u key) :=
  inferInstanceAs (Decidable (_ ∨ _))

/-- A session in which it is settled which names are internal. -/
structure Settled (B : Builtin → Prop) (w : World) : Prop where
  /-- The session decides what is internal. -/
  classifier : w.classifier = .session
  /-- The loader registers in the registry of the session. -/
  registry : w.loader.registry = w.context.registry
  /-- This registry is not redirected. -/
  redirect : w.registries.redirect? w.context.registry = none
  /-- Its commands are neutral, and no alias dangles. -/
  commands : w.commands.Neutral B
  /-- The search directories are absolute. -/
  rooted : ∀ d ∈ w.loader.directories, d.IsRooted
  /-- The modules that are found are additive. -/
  modules : ∀ f ∈ w.found, ∀ name place m, Files.fileName f.2.text = .ok name →
    w.files.read w.cwd name = .ok (place, .code m) → m.Additive B
  /-- Below the search directories nothing changes. -/
  steady : ∀ u, w.Reaches B u → ∀ d ∈ w.loader.directories, w.files.SameBelow d u.files

/-- A world of a settled session. -/
structure Remains (B : Builtin → Prop) (w u : World) : Prop where
  /-- The session came to it. -/
  reaches : w.Reaches B u
  /-- Handlers are given the same. -/
  context : u.context = w.context
  /-- The session decides what is internal. -/
  classifier : u.classifier = w.classifier
  /-- The loader searches the same directories. -/
  directories : u.loader.directories = w.loader.directories
  /-- It registers in the same registry. -/
  registry : u.loader.registry = w.loader.registry
  /-- The registry of the session is not redirected. -/
  redirect : u.registries.redirect? u.context.registry = none
  /-- Its commands are neutral, and no alias dangles. -/
  commands : u.commands.Neutral B
  /-- It will answer the same names. -/
  names : ∀ key, w.WillAnswer u key ↔ w.WillAnswer w key

/-- A world of a settled session becomes another one. -/
def Stays (B : Builtin → Prop) (w u v : World) : Prop := Remains B w u → Remains B w v

variable {B : Builtin → Prop} {u v w : World}

/-- A settled session remains what it is. -/
theorem Settled.remains_self (h : w.Settled B) : Remains B w w where
  reaches := .refl
  context := rfl
  classifier := rfl
  directories := rfl
  registry := rfl
  redirect := h.redirect
  commands := h.commands
  names _ := .rfl

/-- What leaves aside by which commands are found leaves a session settled. -/
theorem stays_of_aside (h : Aside u v) (hstep : Step B u v) : Stays B w u v := by
  intro hu
  have hcommands : v.commands = u.commands := by
    unfold commands
    rw [h.registries, h.context]
  refine ⟨hu.reaches.tail hstep, h.context.trans hu.context, h.classifier.trans hu.classifier,
    ?_, ?_, ?_, ?_, fun key => ?_⟩
  · rw [h.loader]
    exact hu.directories
  · rw [h.loader]
    exact hu.registry
  · rw [h.registries, h.context]
    exact hu.redirect
  · rw [hcommands]
    exact hu.commands
  · rw [← hu.names key, WillAnswer, WillAnswer, pending, pending, hcommands, h.loader]

/-- Reports leave a session settled. -/
theorem reporting_stays : Shell.Frame.Reporting (Stays B w) where
  refl _ := id
  trans huv hvw := hvw ∘ huv
  emitted u es := stays_of_aside (reporting_aside.emitted u es) (.inside u _ _ _ _ _)

/-- The line that was read does not bear on what is settled. -/
theorem stays_session (session : Session) : Stays B w u { u with session } := fun hu =>
  ⟨hu.reaches.tail (.inside u _ _ _ _ _), hu.context, hu.classifier, hu.directories, hu.registry,
    hu.redirect, hu.commands, hu.names⟩

/-- Neither does an entry that is stored. -/
theorem stays_record (entry : String) : Shell.Within (Stays B w) (CommandShell.record entry) :=
  fun u => stays_of_aside ((aside_record entry).within u) (.record u entry)

/-! ## Importing -/

/-- The worlds of a session search for modules alike. -/
theorem Settled.sameSearch (h : w.Settled B) (hu : Remains B w u) :
    SameSearch w.loader.directories w u where
  left := rfl
  right := hu.directories
  rooted := h.rooted
  below d hd := h.steady u hu.reaches d hd

/-- What is found was found by a search that ended well. -/
theorem exists_index_of_mem_found {f : String × Path} (hf : f ∈ w.found) :
    ∃ t w', Loader.index.run w = .ok t w' ∧ f ∈ t.toList := by
  unfold found at hf
  split at hf
  · exact ⟨_, _, ‹_›, hf⟩
  · exact absurd hf List.not_mem_nil

/-- Of two modules with one name both are the same. -/
theorem eq_of_mem_found {f f' : String × Path} (hf : f ∈ w.found) (hf' : f' ∈ w.found)
    (hkey : f.1 = f'.1) : f = f' := by
  obtain ⟨t, w', hindex, hmem⟩ := exists_index_of_mem_found hf
  have hmem' : f' ∈ t.toList := by
    unfold found at hf'
    rwa [hindex] at hf'
  exact List.inj_on_of_nodup_map (Loader.nodup_index hindex) hmem hmem' hkey

/-- **Executing a file that was found** registers the names of its module, whether or not that fails
half way. -/
theorem Settled.adds_executeFile (h : w.Settled B) (hu : Remains B w u) {f : String × Path}
    (hf : f ∈ w.found) (htarget : u.registries.target? moduleRegistry = some u.context.registry) :
    u.Adds B (w.importNames f.2) (executeFile f.2) := by
  obtain ⟨t, w', hindex, hmem⟩ := exists_index_of_mem_found hf
  obtain ⟨d, hd, entry, hfile⟩ := Loader.mem_index hindex hmem
  have hrooted : f.2.IsRooted := by
    rw [hfile]
    exact h.rooted d hd
  have hpath := run_absolutePath_of_isRooted hrooted u
  refine .bind_asked hpath ?_
  unfold importNames
  cases hname : Files.fileName f.2.text with
  | error e =>
    have hlocate : (Files.locateContent f.2).run u = .error e u := by
      unfold Files.locateContent Files.query
      rw [hname]
      rfl
    exact adds_of_error (Shell.run_bind_error hlocate _) (Files.faults_query _ _ _ _ _ hlocate)
  | ok name =>
    -- The file reads as it did at first.
    have hread : u.files.read u.cwd name = w.files.read w.cwd name := by
      have hbelow := (h.steady u hu.reaches d hd).read
        [RawText.ofString entry, RawText.ofString initialFile] name
      rw [← moduleFile_eq, ← hfile] at hbelow
      rw [hbelow hname, FileTree.read_cwd (hrooted.rootOf_name hname) _ u.cwd w.cwd]
    simp only
    cases hcontent : w.files.read w.cwd name with
    | error e =>
      have hlocate : (Files.locateContent f.2).run u = _ :=
        Files.run_query_error hname (hread.trans hcontent)
      exact adds_of_error (Shell.run_bind_error hlocate _) rfl
    | ok r =>
      obtain ⟨place, content⟩ := r
      have hlocate : (Files.locateContent f.2).run u = .ok (place, content) u :=
        Files.run_query_ok hname (hread.trans hcontent)
      refine .bind_asked hlocate ?_
      cases content with
      | bytes data => exact adds_pure ()
      | code m => exact adds_runModule (h.modules f hf name place m hname hcontent) _ htarget

/-- A name is pending if a module that was found and not tried yet registers it. -/
theorem mem_pending_iff {key : String} : key ∈ w.pending u ↔
    ∃ f ∈ w.found, f.1 ∉ u.loader.attempted ∧ key ∈ w.importNames f.2 := by
  simp [pending, and_assoc]

/-- Once all modules were tried, nothing more will be answered. -/
theorem willAnswer_iff_of_tried (h : ∀ f ∈ w.found, f.1 ∈ u.loader.attempted) (key : String) :
    w.WillAnswer u key ↔ u.commands.Answers key := by
  rw [WillAnswer, mem_pending_iff, or_iff_left]
  rintro ⟨f, hf, hnew, -⟩
  exact hnew (h f hf)

/-- **An import changes no answer in the end**: the names of the module are answered now, and were to be
answered before. -/
theorem Remains.willAnswer_iff (hu : Remains B w u) {f : String × Path} (hf : f ∈ w.found)
    (hnew : f.1 ∉ u.loader.attempted) (hattempted : v.loader.attempted = u.loader.attempted ++ [f.1])
    (hanswers : ∀ key, v.commands.Answers key ↔ u.commands.Answers key ∨ key ∈ w.importNames f.2)
    (key : String) : w.WillAnswer v key ↔ w.WillAnswer w key := by
  rw [← hu.names key, WillAnswer, WillAnswer, hanswers, mem_pending_iff, mem_pending_iff]
  constructor
  · rintro ((hkey | hkey) | ⟨f', hf', htried, hkey⟩)
    · exact .inl hkey
    · exact .inr ⟨f, hf, hnew, hkey⟩
    · rw [hattempted, List.mem_append, not_or] at htried
      exact .inr ⟨f', hf', htried.1, hkey⟩
  · rintro (hkey | ⟨f', hf', htried, hkey⟩)
    · exact .inl (.inl hkey)
    · by_cases hsame : f'.1 = f.1
      · rw [eq_of_mem_found hf' hf hsame] at hkey
        exact .inl (.inr hkey)
      · refine .inr ⟨f', hf', ?_, hkey⟩
        rw [hattempted, List.mem_append, List.mem_singleton, not_or]
        exact ⟨htried, hsame⟩

/-- In a settled session the loader registers where the session looks. -/
theorem Settled.registry_eq (h : w.Settled B) (hu : Remains B w u) :
    u.loader.registry = u.context.registry := by
  rw [hu.registry, h.registry, hu.context]

/-- Entering the redirection of an import leaves a session settled: what the module registers goes to the
registry of the session. -/
theorem Settled.remains_entered (h : w.Settled B) {i : Loader.Import} (hi : Remains B w i.world) :
    Remains B w i.entered ∧ i.entered.commands = i.world.commands ∧
      i.entered.registries.target? moduleRegistry = some i.entered.context.registry := by
  have hregistry := h.registry_eq hi
  have hget : i.entered.commands = i.world.commands := Registries.get_enter _ _ _ _
  have hredirect := hi.redirect
  rw [← hregistry] at hredirect
  refine ⟨⟨hi.reaches.tail (.inside i.world _ _ _ _ _), hi.context, hi.classifier, hi.directories,
    hi.registry, ?_, ?_, fun key => ?_⟩, hget, ?_⟩
  · show i.entered.registries.redirect? i.world.context.registry = none
    rw [← hregistry]
    exact Registries.redirect?_enter hredirect moduleRegistry
  · rw [hget]
    exact hi.commands
  · rw [← hi.names key, WillAnswer, WillAnswer, hget]
    rfl
  · show i.entered.registries.target? moduleRegistry = some i.world.context.registry
    rw [← hregistry]
    exact Registries.target?_enter hredirect _

/-- A completed import of a module that was found and not tried leaves a session settled. -/
theorem Settled.remains_after (h : w.Settled B) {i : Loader.Import} (hi : Remains B w i.world)
    (hf : (i.key, i.file) ∈ w.found) (hnew : i.key ∉ i.world.loader.attempted)
    (hcompletes : i.completes = true) : Remains B w i.after := by
  obtain ⟨hentered, hget, htarget⟩ := h.remains_entered hi
  have hgrows := (h.adds_executeFile hentered hf htarget).grows
  have hleft := i.left_eq
  dsimp only at hleft
  -- All that counts of the world behind the import is that it grew.
  generalize i.entered.after (executeFile i.file) = y at hgrows hleft
  have hafter : i.after = { i.world with
      registries := i.after.registries
      loader := { i.world.loader with attempted := i.world.loader.attempted ++ [i.key] }
      imports := i.after.imports
      trace := i.after.trace } := by
    rw [Loader.Import.after, if_pos hcompletes, hleft, hgrows.eq]
    rfl
  have hregistries : i.after.registries = y.registries.leave
      (i.world.registries.enter moduleRegistry i.world.loader.registry).1 := by
    rw [Loader.Import.after, if_pos hcompletes, hleft]
  have hstep : Step B i.world i.after := by
    rw [hafter]
    exact .inside i.world _ _ _ _ _
  have hcontext : i.after.context = i.world.context := by rw [hafter]
  have hattempted := congrArg (fun v => v.loader.attempted) hafter
  have hcommands : i.after.commands = y.commands := by
    unfold World.commands
    rw [hregistries, Registries.get_leave, hcontext, hgrows.context]
    rfl
  refine ⟨hi.reaches.tail hstep, hcontext.trans hi.context,
    (congrArg World.classifier hafter).trans hi.classifier,
    (congrArg (fun v => v.loader.directories) hafter).trans hi.directories,
    (congrArg (fun v => v.loader.registry) hafter).trans hi.registry, ?_, ?_,
    hi.willAnswer_iff hf hnew hattempted fun key => ?_⟩
  · rw [hcontext, ← h.registry_eq hi, hregistries, Registries.redirect?_leave, Registries.redirect?,
      hgrows.redirects]
    exact h.registry_eq hi ▸ hentered.redirect
  · rw [hcommands]
    exact hgrows.commands hentered.commands
  · rw [hcommands, hgrows.answers, hget]

/-- **Importing a module that was found and not tried** gives something, marks the module, and leaves a
session settled. -/
theorem Settled.run_importModule (h : w.Settled B) (hu : Remains B w u) {f : String × Path}
    (hf : f ∈ w.found) (hnew : f.1 ∉ u.loader.attempted) :
    ∃ b v, (Loader.importModule f.1 f.2).run u = .ok b v ∧ Remains B w v ∧
      v.loader.attempted = u.loader.attempted ++ [f.1] := by
  let i : Loader.Import := ⟨f.1, f.2, u⟩
  obtain ⟨hentered, -, htarget⟩ := h.remains_entered (i := i) hu
  have hcompletes : i.escape? = none :=
    i.escape?_eq_none (h.adds_executeFile hentered hf htarget).faults
  obtain ⟨v, hrun, hv⟩ := i.run_importModule_of_completes hcompletes
  have hmarked : i.completes = true := by rw [Loader.Import.completes, hcompletes]; rfl
  have hafter := h.remains_after (i := i) hu hf hnew hmarked
  refine ⟨i.succeeds, v, hrun, ?_, ?_⟩
  · obtain ⟨es, -, rfl⟩ := hv
    exact reporting_stays.emitted _ _ hafter
  · rw [hv.loader, i.attempted_after, if_pos hmarked]

/-! ## Loading -/

/-- A later search finds the same modules. -/
theorem Settled.run_index_ok (h : w.Settled B) (hu : Remains B w u) {t : Table String Path} {w' : World}
    (hindex : Loader.index.run w = .ok t w') :
    ∃ v, Loader.index.run u = .ok t v ∧ Remains B w v := by
  obtain ⟨v, hrun, -⟩ := Loader.carries_index.of_ok (h.sameSearch hu) hindex
  exact ⟨v, hrun, (Loader.heeds_index reporting_stays.toLogging).within.of_ok hrun hu⟩

/-- A search that failed at first fails in the same way later. -/
theorem Settled.run_index_error (h : w.Settled B) (hu : Remains B w u) {f : Fault} {w' : World}
    (hindex : Loader.index.run w = .error f w') :
    ∃ v, Loader.index.run u = .error f v ∧ Remains B w v := by
  obtain ⟨v, hrun, -⟩ := Loader.carries_index.of_error (h.sameSearch hu) hindex
  exact ⟨v, hrun, (Loader.heeds_index reporting_stays.toLogging).within.of_error hrun hu⟩

/-- What is found are the entries of the search. -/
theorem found_eq {t : Table String Path} {w' : World} (hindex : Loader.index.run w = .ok t w') :
    w.found = t.toList := by
  rw [found, hindex]

/-- **Importing the modules that were found** gives something, and all of them have been tried then. -/
theorem Settled.run_loadFound (h : w.Settled B) (verbose : Bool) {fs : List (String × Path)}
    (hfs : ∀ f ∈ fs, f ∈ w.found) (hu : Remains B w u) :
    ∃ n v, (Loader.loadFound verbose fs).run u = .ok n v ∧ Remains B w v ∧
      (∀ key ∈ u.loader.attempted, key ∈ v.loader.attempted) ∧ ∀ f ∈ fs, f.1 ∈ v.loader.attempted := by
  induction fs generalizing u with
  | nil => exact ⟨0, u, rfl, hu, fun _ => id, fun f hf => absurd hf List.not_mem_nil⟩
  | cons f fs ih =>
    have hfs' : ∀ f' ∈ fs, f' ∈ w.found := fun f' hf' => hfs f' (List.mem_cons_of_mem f hf')
    rw [Loader.loadFound, Shell.run_bind_ok (EStateM.run_get u)]
    split
    · rename_i htried
      obtain ⟨n, v, hrun, hv, hkept, hall⟩ := ih hfs' hu
      exact ⟨n, v, hrun, hv, hkept,
        List.forall_mem_cons.mpr ⟨hkept _ (List.contains_iff_mem.mp htried), hall⟩⟩
    · rename_i hnew
      rw [List.contains_iff_mem] at hnew
      obtain ⟨b, v, hrun, hv, hattempted⟩ := h.run_importModule hu (hfs f List.mem_cons_self) hnew
      rw [Shell.run_bind_ok hrun]
      have htried : ∀ key, key ∈ u.loader.attempted ∨ key = f.1 → key ∈ v.loader.attempted := by
        intro key hkey
        rw [hattempted, List.mem_append, List.mem_singleton]
        exact hkey
      -- A report may stand between this module and the others.
      have hmore {v' : World} (hv' : Remains B w v') (hsame : v'.loader = v.loader) :
          ∃ n v'', (Loader.loadFound verbose fs >>= fun more =>
              pure (if b then more + 1 else more) : Shell Nat).run v' = .ok n v'' ∧ Remains B w v'' ∧
            (∀ key ∈ u.loader.attempted, key ∈ v''.loader.attempted) ∧
            ∀ f' ∈ f :: fs, f'.1 ∈ v''.loader.attempted := by
        obtain ⟨n, v'', hrun, hv'', hkept, hall⟩ := ih hfs' hv'
        rw [hsame] at hkept
        exact ⟨_, v'', Shell.run_bind_ok hrun _, hv'', fun key hkey => hkept key (htried key (.inl hkey)),
          List.forall_mem_cons.mpr ⟨hkept _ (htried _ (.inr rfl)), hall⟩⟩
      dsimp only
      split
      · rw [Shell.run_bind_ok (Shell.run_log _ _ _ v)]
        exact hmore (reporting_stays.emitted _ _ hv) rfl
      · exact hmore hv rfl

/-- **Loading all modules** gives something if the search ends well, and all modules have been tried
then. -/
theorem Settled.run_loadAll (h : w.Settled B) (verbose : Bool) (hu : Remains B w u)
    {t : Table String Path} {w' : World} (hindex : Loader.index.run w = .ok t w') :
    ∃ n v, (Loader.loadAll verbose).run u = .ok n v ∧ Remains B w v ∧
      ∀ f ∈ w.found, f.1 ∈ v.loader.attempted := by
  obtain ⟨u₁, hindex₁, hu₁⟩ := h.run_index_ok hu hindex
  rw [found_eq hindex]
  obtain ⟨n, v, hrun, hv, -, hall⟩ := h.run_loadFound verbose
    (fun f hf => found_eq hindex ▸ hf : ∀ f ∈ t.toList, f ∈ w.found) hu₁
  exact ⟨n, v, (Shell.run_bind_ok hindex₁ _).trans hrun, hv, hall⟩

/-- Loading all modules leaves the session settled. -/
theorem Settled.stays_loadAll (h : w.Settled B) (verbose : Bool) :
    Shell.Within (Stays B w) (Loader.loadAll verbose) := by
  intro u hu
  cases hindex : Loader.index.run w with
  | ok t w' =>
    obtain ⟨n, v, hrun, hv, -⟩ := h.run_loadAll verbose hu hindex
    rw [after_of_ok hrun]
    exact hv
  | error f w' =>
    obtain ⟨v, hrun, hv⟩ := h.run_index_error hu hindex
    have hall : (Loader.loadAll verbose).run u = .error f v := Shell.run_bind_error hrun _
    rw [after_of_error hall]
    exact hv

/-- **Loading the module of a name** leaves a session settled. -/
theorem Settled.stays_load (h : w.Settled B) (name : String) :
    Shell.Within (Stays B w) (Loader.load name) := by
  have hR := reporting_stays (B := B) (w := w)
  intro u hu
  unfold Loader.load
  rw [after_bind_ok (EStateM.run_get u)]
  split
  · exact hu
  · rename_i hnew
    rw [List.contains_iff_mem] at hnew
    cases hindex : Loader.index.run w with
    | error f w' =>
      obtain ⟨v, hrun, hv⟩ := h.run_index_error hu hindex
      rw [after_of_error (Shell.run_bind_error hrun _)]
      exact hv
    | ok t w' =>
      obtain ⟨v, hrun, hv⟩ := h.run_index_ok hu hindex
      rw [after_bind_ok hrun]
      cases hfile : t.get? (normalName name) with
      | none => exact (hR.heeds_log _ _ _).within v hv
      | some file =>
        -- Searching has tried nothing.
        obtain ⟨es, -, rfl⟩ := (Loader.heeds_index logging_onlyReports).within.of_ok hrun
        have hfound : (normalName name, file) ∈ w.found := found_eq hindex ▸ Table.mem_of_get? hfile
        obtain ⟨b, v', himport, hv', -⟩ := h.run_importModule hv hfound hnew
        have hall : (Loader.importModule (normalName name) file >>= fun _ => pure () : Shell Unit).run _
            = .ok () v' := Shell.run_bind_ok himport _
        rw [after_of_ok hall]
        exact hv'

end World

end CommandShell

import CommandShell.Proofs.Loader.Search
import CommandShell.Proofs.Registry.Docile
import CommandShell.Proofs.Registry.Redirects
import CommandShell.Proofs.Session.Loading
import CommandShell.Proofs.Shell.Aside
import Mathlib.Logic.Relation

/-! # Loading docile modules

A session is `Prepared` when its registry is docile and not redirected, when the loader registers there
and has registered there whatever it tried, when it searches absolute directories that stay as they are,
and when the modules in these directories are docile. The worlds of such a session are `Steady`: their
registries are docile as well, and every internal command of the session has a name that the registry
answers or that a module has (`World.Knows`). Loading keeps a world steady and forgets no name
(`keeps_load`), and once the module of a name was loaded the registry answers the name
(`answers_load`). -/

namespace CommandShell

namespace World

/-! ## Sessions of docile commands -/

/-- What happens in a session of docile commands: the shell registers, loads, reads and reports; it
records an entry; it calls one of its own commands. -/
inductive Step (B : Builtin → Prop) : World → World → Prop
  | inside (w : World) (registries : Registries) (attempted : List String) (session : Session)
    (imports : Nat) (trace : List Event) :
    Step B w
      { w with registries, loader := { w.loader with attempted }, session, imports, trace }
  | record (w : World) (entry : String) : Step B w (w.after (record entry))
  | call (w : World) {b : Builtin} (hb : B b) (hhelp : b ≠ .help) (origin : Nat)
    (arguments : List String) : Step B w (w.after (b.call origin arguments))

/-- The worlds that a session of docile commands may come to. -/
def Reaches (B : Builtin → Prop) : World → World → Prop := Relation.ReflTransGen (Step B)

/-- The loader finds a module of this normal name. -/
def Offers (w : World) (key : String) : Prop :=
  ∃ t w', Loader.index.run w = .ok t w' ∧ key ∈ t.keys

/-- A world with a new session of docile commands. -/
structure Prepared (B : Builtin → Prop) (w : World) : Prop where
  /-- The session decides what is internal. -/
  classifier : w.classifier = .session
  /-- It has read no line. -/
  fresh : w.session.commands = none
  /-- The loader registers in the registry of the session. -/
  registry : w.loader.registry = w.context.registry
  /-- This registry is not redirected. -/
  redirect : w.registries.redirect? w.context.registry = none
  /-- Its commands are docile, and none was removed. -/
  commands : w.commands.Docile B
  /-- It answers the names of the modules that were tried. -/
  attempted : ∀ key ∈ w.loader.attempted, w.commands.Answers key
  /-- The search directories are absolute. -/
  rooted : ∀ d ∈ w.loader.directories, d.IsRooted
  /-- The modules that are found are docile, and each registers its own name. -/
  modules : ∀ t w', Loader.index.run w = .ok t w' → ∀ found ∈ t.toList, ∃ name place m,
    Files.fileName found.2.text = .ok name ∧ w.files.read w.cwd name = .ok (place, .code m) ∧
      m.Docile B found.1
  /-- Below the search directories nothing changes. -/
  steady : ∀ u, w.Reaches B u → ∀ d ∈ w.loader.directories, w.files.SameBelow d u.files

/-- A name is known: the registry answers it, or it is the name of a module. -/
def Knows (w u : World) (name : String) : Prop :=
  name ≠ "" ∧ (u.commands.Answers (normalName name) ∨ w.Offers (normalName name))

/-- The names of some commands are known, as far as they are internal. -/
def KnowsAll (w u : World) (cs : List Command) : Prop :=
  ∀ c ∈ cs, c.isSystem = false → ∀ name ∈ c.name, w.Knows u name

/-- A world of a session that was started in a prepared world. -/
structure Steady (B : Builtin → Prop) (w u : World) : Prop where
  /-- The session came to it. -/
  reaches : w.Reaches B u
  /-- Handlers are given the same. -/
  context : u.context = w.context
  /-- The session decides what is internal. -/
  classifier : u.classifier = w.classifier
  /-- The loader searches the same directories. -/
  directories : u.loader.directories = w.loader.directories
  /-- It registers in the same registry. -/
  registry : u.loader.registry = w.loader.registry
  /-- The registry of the session is not redirected. -/
  redirect : u.registries.redirect? u.context.registry = none
  /-- It is docile. -/
  commands : u.commands.Docile B
  /-- It answers the names of the modules that were tried. -/
  attempted : ∀ key ∈ u.loader.attempted, u.commands.Answers key
  /-- The internal commands of the session are known. -/
  session : ∀ cs ∈ u.session.commands, w.KnowsAll u cs

/-- A steady world becomes another one, in which no name is forgotten. -/
def Keeps (B : Builtin → Prop) (w u v : World) : Prop :=
  Steady B w u → Steady B w v ∧ ∀ key, u.commands.Answers key → v.commands.Answers key

variable {B : Builtin → Prop} {w u v : World}

/-- A prepared world is steady. -/
theorem Prepared.steady_self (h : w.Prepared B) : Steady B w w where
  reaches := .refl
  context := rfl
  classifier := rfl
  directories := rfl
  registry := rfl
  redirect := h.redirect
  commands := h.commands
  attempted := h.attempted
  session cs hcs := by
    rw [h.fresh] at hcs
    exact nomatch hcs

/-- What is known stays known while the registry goes on to answer. -/
theorem Knows.mono {name : String} (h : w.Knows u name)
    (hkeeps : ∀ key, u.commands.Answers key → v.commands.Answers key) : w.Knows v name :=
  ⟨h.1, h.2.imp_left (hkeeps _)⟩

/-- Commands whose names are known stay so while the registry goes on to answer. -/
theorem KnowsAll.mono {cs : List Command} (h : w.KnowsAll u cs)
    (hkeeps : ∀ key, u.commands.Answers key → v.commands.Answers key) : w.KnowsAll v cs :=
  fun c hc hinternal name hname => (h c hc hinternal name hname).mono hkeeps

/-! ## What keeps a world steady -/

/-- What leaves aside by which commands are found keeps a world steady. -/
theorem keeps_of_aside (h : Aside u v) (hstep : Step B u v) : Keeps B w u v := by
  intro hu
  have hcommands : v.commands = u.commands := by
    unfold commands
    rw [h.registries, h.context]
  have hanswers (key : String) (hkey : u.commands.Answers key) : v.commands.Answers key := by
    rw [hcommands]
    exact hkey
  refine ⟨⟨hu.reaches.tail hstep, h.context.trans hu.context, h.classifier.trans hu.classifier,
    ?_, ?_, ?_, ?_, ?_, ?_⟩, hanswers⟩
  · rw [h.loader]
    exact hu.directories
  · rw [h.loader]
    exact hu.registry
  · rw [h.registries, h.context]
    exact hu.redirect
  · rw [hcommands]
    exact hu.commands
  · rw [h.loader, hcommands]
    exact hu.attempted
  · intro cs hcs
    rw [h.session] at hcs
    exact (hu.session cs hcs).mono hanswers

/-- Reports keep a session steady. -/
theorem reporting_keeps : Shell.Frame.Reporting (Keeps B w) where
  refl u hu := ⟨hu, fun _ => id⟩
  trans huv hvw hu := by
    obtain ⟨hv, hkeeps⟩ := huv hu
    obtain ⟨hw, hkeeps'⟩ := hvw hv
    exact ⟨hw, fun key hkey => hkeeps' key (hkeeps key hkey)⟩
  emitted u es := keeps_of_aside (reporting_aside.emitted u es) (.inside u _ _ _ _ _)

/-- Counting imports keeps a session steady. -/
theorem keeps_imports (imports : Nat) : Keeps B w u { u with imports } :=
  keeps_of_aside ⟨rfl, rfl, rfl, rfl, rfl⟩ (.inside u _ _ _ _ _)

/-- New registries keep a world steady if that of the session stays docile and forgets no name. -/
theorem keeps_registries {rs : Registries}
    (hredirect : Steady B w u → rs.redirect? u.context.registry = none)
    (hdocile : Steady B w u → (rs.get u.context.registry).Docile B)
    (hanswers : ∀ key, u.commands.Answers key → (rs.get u.context.registry).Answers key) :
    Keeps B w u { u with registries := rs } := by
  intro hu
  refine ⟨⟨hu.reaches.tail (.inside u rs _ _ _ _), hu.context, hu.classifier, hu.directories,
    hu.registry, hredirect hu, hdocile hu, ?_, ?_⟩, hanswers⟩
  · intro key hkey
    exact hanswers key (hu.attempted key hkey)
  · intro cs hcs
    exact (hu.session cs hcs).mono hanswers

/-- A module may be marked when the registry answers its name. -/
theorem keeps_attempted {key : String} (h : u.commands.Answers key) :
    Keeps B w u { u with loader := { u.loader with attempted := u.loader.attempted ++ [key] } } := by
  intro hu
  refine ⟨⟨hu.reaches.tail (.inside u _ _ _ _ _), hu.context, hu.classifier, hu.directories,
    hu.registry, hu.redirect, hu.commands, ?_, hu.session⟩, fun _ => id⟩
  intro key' hkey
  rcases List.mem_append.mp hkey with hkey | hkey
  · exact hu.attempted key' hkey
  · rw [List.mem_singleton.mp hkey]
    exact h

/-- The session may change if its internal commands stay known. -/
theorem keeps_session {session : Session}
    (h : Steady B w u → ∀ cs ∈ session.commands, w.KnowsAll u cs) : Keeps B w u { u with session } := by
  intro hu
  exact ⟨⟨hu.reaches.tail (.inside u _ _ _ _ _), hu.context, hu.classifier, hu.directories,
    hu.registry, hu.redirect, hu.commands, hu.attempted, h hu⟩, fun _ => id⟩

/-- Storing an entry keeps a session steady, and misses no command. -/
theorem keeps_record (entry : String) : Shell.Heeds (Keeps B w) (CommandShell.record entry) :=
  ⟨fun u => keeps_of_aside ((aside_record entry).within u) (.record u entry),
    (aside_record entry).faults⟩

end World

/-! ## Registering -/

section

open World

variable {B : Builtin → Prop} {w u : World} {i : RegistryId} {e : Entry}

/-- Adding a docile entry keeps a world steady, and the registry of the session answers its name if the
entry comes there. -/
theorem keeps_add (he : e.Docile B) (i : RegistryId) : Shell.Within (Keeps B w) (Shell.add i e) := by
  intro u
  cases htarget : u.registries.target? i with
  | none =>
    have hrun : (Shell.add i e).run u = .error .nesting u := by
      unfold Shell.add
      rw [Shell.run_bind_ok (EStateM.run_get u), Registries.add?, htarget]
      rfl
    rw [after_of_error hrun]
    exact reporting_keeps.refl u
  | some j =>
    -- The entry comes to the end of the redirections, which need not be the registry of the session.
    rw [after_of_ok (Shell.run_add htarget e)]
    apply keeps_registries
    · exact fun hu => hu.redirect
    · intro hu
      rw [Registries.get_set]
      split
      · rename_i hj
        subst hj
        exact hu.commands.add he
      · exact hu.commands
    · intro key hkey
      rw [Registries.get_set]
      split
      · rename_i hj
        subst hj
        exact hkey.add e
      · exact hkey

/-- Registering a docile entry keeps a session steady. -/
theorem keeps_register (he : e.Docile B) (i : RegistryId) :
    Shell.Within (Keeps B w) (Shell.register i e) := by
  intro u
  have hnumbered : Keeps B w u { u with registries := (u.registries.number e).2 } :=
    keeps_registries (fun hu => hu.redirect) (fun hu => hu.commands) fun _ => id
  have hentry : (u.registries.number e).1.Docile B := ⟨he.name, he.aliases, he.handler⟩
  rw [World.after, Shell.run_register_eq]
  exact reporting_keeps.trans hnumbered (keeps_add hentry i _)

/-- What is registered in the registry of the session is answered, and the redirections stay. -/
theorem answers_register (h : u.registries.target? i = some u.context.registry) (e : Entry) :
    let v := u.after (Shell.register i e)
    v.commands.Answers (normalName e.name) ∧
      v.registries.target? i = some v.context.registry := by
  intro v
  have hv : v = _ := after_of_ok (Shell.run_register h e)
  rw [hv]
  constructor
  · unfold World.commands
    rw [Registries.get_set, if_pos rfl]
    exact Registry.answers_add_self _ (u.registries.number e).1
  · have htarget (r : Registry) :
        ((u.registries.number e).2.set u.context.registry r).target? i = u.registries.target? i :=
      Registries.target?_congr (by rfl) i
    exact (htarget _).trans h

/-! ## Importing -/

/-- The actions of a docile module keep a session steady. -/
theorem keeps_runBody {body : List Action} (h : Action.Docile body) :
    Shell.Within (Keeps B w) (Module.runBody body) := by
  have hR := reporting_keeps (B := B) (w := w)
  induction h with
  | nil => exact hR.within_pure _
  | @plain action rest h hrest ih =>
    cases action with
    | raise r => exact hR.within_throw _
    | unknown name => exact nomatch h
    | define d body => exact nomatch h
    | undefine name => exact nomatch h
    | _ => exact ih
  | @define d body rest hnamed hbody hrest _ ih =>
    have he : (d.entry (.script body)).Docile B := hnamed.docile_entry hbody
    exact hR.within_bind (keeps_register he _) fun _ => ih

/-- Once the actions of a docile module are done, the registry answers the names that they register. -/
theorem answers_runBody {body : List Action} (h : Action.Docile body) {key : String}
    (hkey : Action.registers key body = true) (hu : Steady B w u)
    (htarget : u.registries.target? moduleRegistry = some u.context.registry) :
    (u.after (Module.runBody body)).commands.Answers key := by
  induction h generalizing u with
  | nil => exact nomatch hkey
  | @plain action rest h hrest ih =>
    cases action with
    | raise r => exact nomatch hkey
    | unknown name => exact nomatch hkey
    | define d body => exact nomatch h
    | undefine name => exact nomatch h
    | _ => exact ih hkey hu htarget
  | @define d body rest hnamed hbody hrest _ ih =>
    -- The name is registered here or by the rest, which forgets no name.
    obtain ⟨hanswers, htarget'⟩ := answers_register htarget (d.entry (.script body))
    have he : (d.entry (.script body)).Docile B := hnamed.docile_entry hbody
    obtain ⟨hv, _⟩ := keeps_register he moduleRegistry u hu
    have hrun : u.after (Module.runBody (.define d body :: rest))
        = (u.after (Shell.register moduleRegistry (d.entry (.script body)))).after
            (Module.runBody rest) := by
      have hregister := Shell.run_register htarget (d.entry (.script body))
      rw [after_of_ok hregister]
      exact after_bind_ok hregister _
    rw [hrun]
    rcases Bool.or_eq_true_iff.mp hkey with hname | hrestkey
    · have hname := of_decide_eq_true hname
      subst hname
      exact (keeps_runBody hrest _ hv).2 _ hanswers
    · exact ih hrestkey hv htarget'

/-- Running a docile module keeps a session steady. -/
theorem keeps_run {m : Module} {key : String} (h : m.Docile B key) (directory : String) :
    Shell.Within (Keeps B w) (m.run directory) := by
  have hR := reporting_keeps (B := B) (w := w)
  cases m with
  | unreadable => exact h.elim
  | script body => exact hR.within_bind (hR.heeds_emit _).within fun _ => keeps_runBody h.1
  | builtin b =>
    refine hR.within_bind hR.within_get fun v => ?_
    have hcounted (n : Nat) : Shell.Within (Keeps B w)
        (modify fun v => { v with imports := n } : Shell PUnit) := fun v => keeps_imports n
    have he : (b.declaration.entry (.builtin b v.imports)).Docile B :=
      b.isNamed_declaration.docile_entry h.1
    exact hR.within_bind (hcounted _) fun _ => keeps_register he _

/-- Once a docile module was imported, the registry of the session answers its name. -/
theorem answers_run {m : Module} {key : String} (h : m.Docile B key) (directory : String)
    (hu : Steady B w u)
    (htarget : u.registries.target? moduleRegistry = some u.context.registry) :
    (u.after (m.run directory)).commands.Answers key := by
  cases m with
  | unreadable => exact h.elim
  | script body =>
    have hemitted := (reporting_keeps.emitted u [.imported directory] hu).1
    unfold Module.run
    rw [after_bind_ok (Shell.run_emit _ u)]
    exact answers_runBody h.1 h.2 hemitted htarget
  | builtin b =>
    have hcounted : (modify fun v => { v with imports := u.imports + 1 } : Shell PUnit).run u
        = .ok ⟨⟩ { u with imports := u.imports + 1 } := rfl
    have hname : normalName (b.declaration.entry (.builtin b u.imports)).name = key := h.2
    unfold Module.run
    rw [after_bind_ok (EStateM.run_get u), after_bind_ok hcounted, ← hname]
    have hregistered := answers_register (u := { u with imports := u.imports + 1 }) htarget
      (b.declaration.entry (.builtin b u.imports))
    exact hregistered.1

/-- The worlds of a session search for modules alike. -/
theorem World.Prepared.sameSearch (h : w.Prepared B) (hu : Steady B w u) :
    SameSearch w.loader.directories u w where
  left := hu.directories
  right := rfl
  rooted := h.rooted
  below d hd := (h.steady u hu.reaches d hd).symm

/-- The modules that are found are those of the prepared world. -/
theorem World.Prepared.run_index (h : w.Prepared B) (hu : Steady B w u) {t : Table String Path}
    {v : World} (hindex : Loader.index.run u = .ok t v) : ∃ w', Loader.index.run w = .ok t w' := by
  obtain ⟨w', hindex', _⟩ := Loader.carries_index.of_ok (h.sameSearch hu) hindex
  exact ⟨w', hindex'⟩

/-- The file of a module is the path of its directory and two more names. -/
theorem World.moduleFile_eq (d : Path) (name : String) : moduleFile d name
    = ⟨d.root, d.parts ++ [RawText.ofString name, RawText.ofString initialFile]⟩ := by
  have hchild : moduleFile d name
      = ⟨d.root, (d.parts ++ [RawText.ofString name]) ++ [RawText.ofString initialFile]⟩ := rfl
  rw [hchild, List.append_assoc]
  rfl

/-- Importing what is found runs a docile module of its name. -/
theorem World.Prepared.after_importFile (h : w.Prepared B) (hu : Steady B w u) {t : Table String Path}
    {w' : World} (hindex : Loader.index.run w = .ok t w') {found : String × Path}
    (hfound : found ∈ t.toList) :
    ∃ (m : Module) (directory : String),
      m.Docile B found.1 ∧ u.after (importFile found.2) = u.after (m.run directory) := by
  obtain ⟨name, place, m, hname, hread, hm⟩ := h.modules t w' hindex found hfound
  obtain ⟨d, hd, entry, hfile⟩ := Loader.mem_index hindex hfound
  have hrooted : found.2.IsRooted := by
    rw [hfile]
    exact h.rooted d hd
  have hread' : u.files.read u.cwd name = .ok (place, .code m) := by
    have hbelow := (h.steady u hu.reaches d hd).read
      [RawText.ofString entry, RawText.ofString initialFile] name
    have hroot : Path.rootOf name ≠ "" := hrooted.rootOf_name hname
    rw [hfile, moduleFile_eq] at hname
    rw [hbelow hname, FileTree.read_cwd hroot _ u.cwd w.cwd, hread]
  refine ⟨m, place.dropLast.getLast?.getD "", hm, ?_⟩
  rw [World.after, run_importFile_of_read hrooted hname hread']
  exact Shell.after_recover _ _ _ _ u

/-- Importing what is found while the registry of modules is redirected keeps a world steady, and the
registry of the session answers the name of the module. -/
theorem World.Prepared.after_redirected (h : w.Prepared B) (hu : Steady B w u)
    {t : Table String Path} {w' : World} (hindex : Loader.index.run w = .ok t w')
    {found : String × Path} (hfound : found ∈ t.toList) :
    let v := u.after (Shell.redirected moduleRegistry u.context.registry (importFile found.2))
    (Steady B w v ∧ ∀ key, u.commands.Answers key → v.commands.Answers key) ∧
      v.commands.Answers found.1 := by
  intro v
  -- The redirection is entered, the module is run, and the redirection is left.
  let redirection := u.registries.enter moduleRegistry u.context.registry
  let entered := { u with registries := redirection.2 }
  have henter : Keeps B w u entered := by
    have hget : redirection.2.get u.context.registry = u.commands := Registries.get_enter _ _ _ _
    apply keeps_registries
    · exact fun hu => Registries.redirect?_enter hu.redirect _
    · intro hu
      rw [hget]
      exact hu.commands
    · intro key hkey
      rw [hget]
      exact hkey
  have hentered := (henter hu).1
  obtain ⟨m, directory, hm, himport⟩ := h.after_importFile hentered hindex hfound
  have hrun : Keeps B w entered (entered.after (importFile found.2)) := by
    rw [himport]
    exact keeps_run hm directory entered
  have hanswers : (entered.after (importFile found.2)).commands.Answers found.1 := by
    rw [himport]
    exact answers_run hm directory hentered (Registries.target?_enter hu.redirect _)
  have hcontext : (entered.after (importFile found.2)).context = u.context :=
    (hrun hentered).1.context.trans hu.context.symm
  have hleave : Keeps B w (entered.after (importFile found.2)) v := by
    have hget (i : RegistryId) := Registries.get_leave
      (entered.after (importFile found.2)).registries redirection.1 i
    rw [show v = _ from World.after_redirected _ _ _ u]
    apply keeps_registries
    · intro hmiddle
      have hredirect := hmiddle.redirect
      rw [hcontext] at hredirect ⊢
      exact (Registries.redirect?_leave _ _ _ _).trans hredirect
    · intro hmiddle
      rw [hget]
      exact hmiddle.commands
    · intro key hkey
      rw [hget]
      exact hkey
  exact ⟨reporting_keeps.trans henter (reporting_keeps.trans hrun hleave) hu,
    (hleave (hrun hentered).1).2 _ hanswers⟩

/-- **Importing a module that was found** keeps a world steady, and the registry of the session answers
the name of the module. -/
theorem World.Prepared.after_importModule (h : w.Prepared B) (hu : Steady B w u)
    {t : Table String Path} {w' : World} (hindex : Loader.index.run w = .ok t w')
    {found : String × Path} (hfound : found ∈ t.toList) :
    let v := u.after (Loader.importModule found.1 found.2)
    (Steady B w v ∧ ∀ key, u.commands.Answers key → v.commands.Answers key) ∧
      v.commands.Answers found.1 := by
  intro v
  have hR := reporting_keeps (B := B) (w := w)
  have hregistry : u.loader.registry = u.context.registry := by
    rw [hu.registry, h.registry, hu.context]
  have hredirected := h.after_redirected hu hindex hfound
  rw [← hregistry] at hredirected
  have hv : v = _ := after_bind_ok (EStateM.run_get u) _
  rw [hv]
  cases hrun : (Shell.redirected moduleRegistry u.loader.registry (importFile found.2)).run u with
  | error f u₁ =>
    rw [after_of_error hrun] at hredirected
    rw [after_of_error (Shell.run_bind_error hrun _)]
    exact hredirected
  | ok failure u₁ =>
    rw [after_of_ok hrun] at hredirected
    obtain ⟨⟨hu₁, hkeeps⟩, hanswers⟩ := hredirected
    -- The module is marked and reported.
    have hmark := keeps_attempted (B := B) (w := w) hanswers
    have hreport (level : Level) (message : String) (b : Bool) : Shell.Within (Keeps B w)
        (Shell.log level .loader message >>= fun _ => pure b) :=
      hR.within_bind (hR.heeds_log _ _ _).within fun _ => hR.within_pure _
    have hfinish (v' : World) (h' : Keeps B w u₁ v') :
        (Steady B w v' ∧ ∀ key, u.commands.Answers key → v'.commands.Answers key) ∧
          v'.commands.Answers found.1 := by
      obtain ⟨hv', hkeeps'⟩ := h' hu₁
      exact ⟨⟨hv', fun key hkey => hkeeps' key (hkeeps key hkey)⟩, hkeeps' _ hanswers⟩
    rw [after_bind_ok hrun]
    apply hfinish
    refine hR.bind_at hmark fun _ v' _ => ?_
    split
    · exact hreport _ _ _ v'
    · exact hreport _ _ _ v'

/-! ## Loading -/

/-- Searching keeps a session steady. -/
theorem keeps_index : Shell.Within (Keeps B w) Loader.index := (Loader.heeds_index reporting_keeps.toLogging).within

/-- Importing a module that was found keeps a session steady. -/
theorem World.Prepared.keeps_importModule (h : w.Prepared B) {t : Table String Path} {w' : World}
    (hindex : Loader.index.run w = .ok t w') {found : String × Path} (hfound : found ∈ t.toList) :
    Shell.Within (Keeps B w) (Loader.importModule found.1 found.2) :=
  fun _ hu => (h.after_importModule hu hindex hfound).1

/-- **Loading the module of a name** keeps a world steady. -/
theorem World.Prepared.keeps_load (h : w.Prepared B) (name : String) :
    Shell.Within (Keeps B w) (Loader.load name) := by
  have hR := reporting_keeps (B := B) (w := w)
  intro u hu
  refine hR.bind_at (hR.within_get u) (fun x v hx => ?_) hu
  cases hx
  split
  · exact hR.within_pure _ u
  · refine hR.bind_at (keeps_index u) fun t v hindex => ?_
    obtain ⟨w', hindex'⟩ := h.run_index hu hindex
    split
    · exact (hR.heeds_log _ _ _).within v
    · rename_i file hfile
      have himport := h.keeps_importModule hindex' (Table.mem_of_get? hfile)
      exact hR.within_bind himport (fun _ => hR.within_pure _) v

/-- **Once the module of a name was loaded**, the registry answers the name. -/
theorem World.Prepared.answers_load (h : w.Prepared B) (hu : Steady B w u) {name : String}
    (hoffers : w.Offers (normalName name)) {v : World}
    (hload : (Loader.load name).run u = .ok () v) : v.commands.Answers (normalName name) := by
  unfold Loader.load at hload
  rw [Shell.run_bind_ok (EStateM.run_get u)] at hload
  split at hload
  · rename_i htried
    cases hload
    exact hu.attempted _ (List.contains_iff_mem.mp htried)
  · obtain ⟨t, u₁, hindex, hrest⟩ := Shell.run_bind_eq_ok_iff.mp hload
    obtain ⟨w', hindex'⟩ := h.run_index hu hindex
    obtain ⟨t', w'', hoffered, hkey⟩ := hoffers
    rw [hindex'] at hoffered
    obtain ⟨rfl, rfl⟩ := EStateM.Result.ok.inj hoffered
    obtain ⟨file, hfile⟩ := Table.mem_keys_iff.mp hkey
    rw [hfile] at hrest
    obtain ⟨succeeded, v', himport, hv⟩ := Shell.run_bind_eq_ok_iff.mp hrest
    cases hv
    have hu₁ := (Shell.Within.of_ok keeps_index hindex hu).1
    have hanswers := (h.after_importModule hu₁ hindex' (Table.mem_of_get? hfile)).2
    rw [after_of_ok himport] at hanswers
    exact hanswers

/-- Importing modules that were found keeps a session steady. -/
theorem World.Prepared.keeps_loadFound (h : w.Prepared B) {t : Table String Path} {w' : World}
    (hindex : Loader.index.run w = .ok t w') (verbose : Bool) {found : List (String × Path)}
    (hfound : ∀ f ∈ found, f ∈ t.toList) :
    Shell.Within (Keeps B w) (Loader.loadFound verbose found) := by
  have hR := reporting_keeps (B := B) (w := w)
  induction found with
  | nil => exact hR.within_pure _
  | cons f rest ih =>
    have hrest := ih fun f hf => hfound f (List.mem_cons_of_mem _ hf)
    refine hR.within_bind hR.within_get fun u => ?_
    split
    · exact hrest
    · have himport := h.keeps_importModule hindex (hfound f List.mem_cons_self)
      refine hR.within_bind himport fun succeeded => ?_
      have hmore : Shell.Within (Keeps B w) (Loader.loadFound verbose rest >>= fun more =>
          pure (if succeeded then more + 1 else more)) :=
        hR.within_bind hrest fun _ => hR.within_pure _
      dsimp only
      split
      · exact hR.within_bind (hR.heeds_log _ _ _).within fun _ => hmore
      · exact hmore

/-- **Loading all modules** keeps a world steady. -/
theorem World.Prepared.keeps_loadAll (h : w.Prepared B) (verbose : Bool) :
    Shell.Within (Keeps B w) (Loader.loadAll verbose) := by
  intro u hu
  refine reporting_keeps.bind_at (keeps_index u) (fun t v hindex => ?_) hu
  obtain ⟨w', hindex'⟩ := h.run_index hu hindex
  exact h.keeps_loadFound hindex' verbose (fun _ => id) v

end

end CommandShell

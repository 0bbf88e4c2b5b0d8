import Supervisord.Config.Keys

/-!
# The supervisor and its reload

`Supervisor.Reload` records the program names of the current configuration,
loads the configuration file again into the same `Config`, starts the event
listeners, and calls `createPrograms`: every program entry of the store is
created or updated in the process manager, and every recorded name missing
from the store's new program names is removed. `Reload` then serves until a
restart is requested: `reload` models `Reload` up to that polling loop and returns
the names passed to `Remove`, and `pollLoop` models the loop of one call.

The process manager belongs to the Process Runtime collaborator and is not
among the sources; it is modelled from the spec (§6) as a map from process
name to the configuration entry the process was created from.

Since `Load` keeps every entry the reloaded file does not write, such a program
is never removed: `reload_keeps_unwritten_program` shows this for every file and
every `sortProgram` that permutes its argument. At start-up the supervisor is
fresh, so its first `Reload` removes nothing. Each instance a program section
expands into (`Config.load_expands`) then gets a process under its name. An
event listener section also keeps an entry of its own from the last pass of
`parse` (`Config.lookup_load_other_section`), so it gets a process under its
listener name whatever its `numprocs`.

When the store keeps every entry under a key its name allows, as every load does
(`Config.keyNamed_load`), a `Reload` leaves the process of each program holding the
program entry stored under its name (`programsSynced_reload`).
-/

namespace Supervisord

/--
Modelled from the spec: the process manager is not among the sources. The
Process Runtime (§6) keeps one process per name; `CreateProcess` creates or
updates the process of an entry and `Remove` deletes a process by name.
-/
structure ProcessManager where
  procs : GoMap ConfigEntry

namespace ProcessManager

/-- The name of the process an entry describes. -/
def processName (entry : ConfigEntry) : String :=
  if entry.isEventListener then entry.getEventListenerName else entry.getProgramName

/-- `CreateProcess`. -/
def createProcess (pm : ProcessManager) (_supervisorId : String) (entry : ConfigEntry) :
    ProcessManager :=
  ⟨pm.procs.set (processName entry) entry⟩

/-- `Remove`. -/
def remove (pm : ProcessManager) (name : String) : ProcessManager := ⟨pm.procs.delete name⟩

/-- `Find`. -/
def find (pm : ProcessManager) (name : String) : Option ConfigEntry := pm.procs.lookup name

/-- The processes created from program entries. -/
def programNames (pm : ProcessManager) : List String :=
  (pm.procs.entries.filter fun proc => proc.2.isProgram).map Prod.fst

@[simp] theorem find_createProcess (pm : ProcessManager) (supervisorId : String)
    (entry : ConfigEntry) (name : String) :
    (pm.createProcess supervisorId entry).find name =
      if name = processName entry then some entry else pm.find name :=
  GoMap.lookup_set _ _ _ _

@[simp] theorem find_remove (pm : ProcessManager) (removed name : String) :
    (pm.remove removed).find name = if name = removed then none else pm.find name :=
  GoMap.lookup_delete _ _ _

theorem processName_of_isProgram {entry : ConfigEntry} (program : entry.isProgram = true) :
    processName entry = entry.getProgramName := by
  simp [processName, ConfigEntry.isEventListener_eq_false_of_isProgram program]

/-- The process of an event listener is named by what follows the `eventlistener:` prefix. -/
theorem processName_of_isEventListener {entry : ConfigEntry}
    (listener : entry.isEventListener = true) :
    processName entry = GoStd.dropChars entry.name "eventlistener:".length := by
  rw [processName, if_pos listener, ConfigEntry.getEventListenerName, ConfigEntry.kindName,
    if_pos (show entry.isKind "eventlistener:" = true from listener)]

/-- Removing processes by name keeps every process of another name. -/
theorem find_foldl_remove (pm : ProcessManager) {names : List String} {name : String}
    (kept : name ∉ names) : (names.foldl remove pm).find name = pm.find name := by
  induction names generalizing pm with
  | nil => rfl
  | cons removed names ih =>
      rw [List.mem_cons, not_or] at kept
      rw [List.foldl_cons, ih _ kept.2, find_remove, if_neg kept.1]

/-- Removing processes by name leaves no process of a removed name. -/
theorem find_foldl_remove_of_mem (pm : ProcessManager) {names : List String} {name : String}
    (gone : name ∈ names) : (names.foldl remove pm).find name = none := by
  induction names generalizing pm with
  | nil => cases gone
  | cons removed names ih =>
      rw [List.foldl_cons]
      by_cases later : name ∈ names
      · exact ih _ later
      · rw [find_foldl_remove _ later, find_remove,
          if_pos ((List.mem_cons.mp gone).resolve_right later)]

/-- Creating processes keeps every process and adds exactly one for each entry. -/
theorem isSome_find_foldl_createProcess_iff (supervisorId : String) (entries : List ConfigEntry)
    (pm : ProcessManager) (name : String) :
    ((entries.foldl (fun pm entry => pm.createProcess supervisorId entry) pm).find name).isSome ↔
      (pm.find name).isSome ∨ ∃ entry ∈ entries, processName entry = name := by
  induction entries generalizing pm with
  | nil => simp
  | cons first entries ih =>
      rw [List.foldl_cons, ih, find_createProcess]
      simp only [List.mem_cons, or_and_right, exists_or, exists_eq_left]
      by_cases hit : name = processName first
      · simp [hit]
      · simp [hit, Ne.symm hit]

theorem isSome_find_foldl_createProcess (supervisorId : String) {entries : List ConfigEntry}
    (pm : ProcessManager) {name : String}
    (created : (pm.find name).isSome ∨ ∃ entry ∈ entries, processName entry = name) :
    ((entries.foldl (fun pm entry => pm.createProcess supervisorId entry) pm).find name).isSome :=
  (isSome_find_foldl_createProcess_iff supervisorId entries pm name).mpr created

/-- Creating processes keeps the process of every name no entry has. -/
theorem find_foldl_createProcess_of_not_mem (supervisorId : String) {entries : List ConfigEntry}
    (pm : ProcessManager) {name : String} (untouched : name ∉ entries.map processName) :
    (entries.foldl (fun pm entry => pm.createProcess supervisorId entry) pm).find name =
      pm.find name := by
  induction entries generalizing pm with
  | nil => rfl
  | cons first entries ih =>
      rw [List.map_cons, List.mem_cons, not_or] at untouched
      rw [List.foldl_cons, ih _ untouched.2, find_createProcess, if_neg untouched.1]

/-- When no two entries name the same process, each entry's process is created from it. -/
theorem find_foldl_createProcess (supervisorId : String) {entries : List ConfigEntry}
    (pm : ProcessManager) (nodup : (entries.map processName).Nodup) {entry : ConfigEntry}
    (mem : entry ∈ entries) :
    (entries.foldl (fun pm entry => pm.createProcess supervisorId entry) pm).find
      (processName entry) = some entry := by
  induction entries generalizing pm with
  | nil => cases mem
  | cons first entries ih =>
      rw [List.map_cons, List.nodup_cons] at nodup
      rw [List.foldl_cons]
      rcases List.mem_cons.mp mem with rfl | later
      · rw [find_foldl_createProcess_of_not_mem _ _ nodup.1, find_createProcess, if_pos rfl]
      · exact ih _ nodup.2 later

end ProcessManager

/-- `Supervisor`, with the state `Reload` reads and writes. -/
structure Supervisor where
  config : Config
  procMgr : ProcessManager
  restarting : Bool

/-- `NewSupervisor`. -/
def newSupervisor (configFile : String) : Supervisor := ⟨newConfig configFile, ⟨GoMap.empty⟩, false⟩

namespace Supervisor

variable (sortProgram : List ConfigEntry → List ConfigEntry)

/-- `GetSupervisorId`. -/
def getSupervisorId (s : Supervisor) : String :=
  match s.config.getSupervisord with
  | some entry => entry.getString "identifier" "supervisor"
  | none => "supervisor"

/-- `startEventListeners`: a process for every event listener entry. -/
def startEventListeners (s : Supervisor) : Supervisor :=
  let procMgr := s.config.getEventListeners.foldl
    (fun pm entry => pm.createProcess s.getSupervisorId entry) s.procMgr
  { s with procMgr := procMgr }

@[simp] theorem config_startEventListeners (s : Supervisor) :
    s.startEventListeners.config = s.config := rfl

/-- The names `createPrograms` passes to `Remove`: `sub(prevPrograms, programs)`. -/
def removedPrograms (s : Supervisor) (prevPrograms : List String) : List String :=
  sub prevPrograms (s.config.getProgramNames sortProgram)

/-- `createPrograms`. -/
def createPrograms (s : Supervisor) (prevPrograms : List String) : Supervisor :=
  let procMgr := (s.config.getPrograms sortProgram).foldl
    (fun pm entry => pm.createProcess s.getSupervisorId entry) s.procMgr
  let removed := s.removedPrograms sortProgram prevPrograms
  { s with procMgr := removed.foldl ProcessManager.remove procMgr }

/-- `Reload` up to its polling loop: the supervisor after `createPrograms`, and
the names passed to `Remove`, or the failure of the load. A load that returns an error
leaves the store as it was; one that panics leaves what `parse` wrote before the panic
(`Config.storeAfterLoad`), which the daemon keeps (`Daemon.step`). -/
def reload (fs : FileSystem) (s : Supervisor) : Except Failure (Supervisor × List String) :=
  let prevPrograms := s.config.getProgramNames sortProgram
  match s.config.load fs with
  | .error err => .error err
  | .ok config =>
      let s := ({ s with config := config } : Supervisor).startEventListeners
      let s := { s with restarting := false }
      .ok (s.createPrograms sortProgram prevPrograms, s.removedPrograms sortProgram prevPrograms)

/-- A program entry that the reloaded file does not write survives the reload: its
name is not removed and its process stays in the manager. -/
theorem reload_keeps_unwritten_program (sorted : ∀ programs, (sortProgram programs).Perm programs)
    {fs : FileSystem} {s s' : Supervisor} {removed : List String} {cfg : IniFile} {key : String}
    {entry : ConfigEntry} (read : s.config.readFile fs = .ok cfg)
    (reloaded : s.reload sortProgram fs = .ok (s', removed))
    (program : s.config.entries.lookup key = some entry) (isProgram : entry.isProgram = true)
    (unwritten : ¬ Config.Written cfg key) :
    entry.getProgramName ∉ removed ∧ (s'.procMgr.find entry.getProgramName).isSome := by
  unfold reload at reloaded
  split at reloaded
  · cases reloaded
  · next config loaded =>
      cases reloaded
      have kept : config.entries.lookup key = some entry :=
        ((Config.writes_load read loaded).frame key unwritten).trans program
      have listed : entry ∈ config.getPrograms sortProgram :=
        (sorted _).mem_iff.mpr ((Config.mem_getEntries _ _ _).mpr ⟨⟨key, kept⟩, isProgram⟩)
      have named : entry.getProgramName ∈ config.getProgramNames sortProgram :=
        List.mem_map_of_mem _ ((sorted _).mem_iff.mpr listed)
      have notRemoved : entry.getProgramName ∉ sub (s.config.getProgramNames sortProgram)
          (config.getProgramNames sortProgram) := by
        simp [mem_sub, named]
      refine ⟨notRemoved, ?_⟩
      simp only [createPrograms, removedPrograms, config_startEventListeners]
      rw [ProcessManager.find_foldl_remove _ notRemoved]
      exact ProcessManager.isSome_find_foldl_createProcess _ _
        (.inr ⟨entry, listed, ProcessManager.processName_of_isProgram isProgram⟩)

/-- Reloading `[program:a]` and then `[program:b]`: nothing is removed, and both
programs stay in the manager. -/
theorem reload_keeps_dropped_program :
    let first : FileSystem :=
      ⟨fun _ => .ok (IniFile.ofList [("program:a", [("command", "/bin/a")])]), fun _ => none⟩
    let second : FileSystem :=
      ⟨fun _ => .ok (IniFile.ofList [("program:b", [("command", "/bin/b")])]), fun _ => none⟩
    ((newSupervisor "/etc/supervisord.conf").reload id first >>= fun r => r.1.reload id second).map
        (fun r => (r.2, r.1.procMgr.programNames)) = .ok ([], ["a", "b"]) :=
  rfl

/-- What a successful `Reload` did: it loaded the configuration it now holds, and removed
the names `sub` gives. -/
theorem reload_eq_ok {fs : FileSystem} {s s' : Supervisor} {removed : List String}
    (reloaded : s.reload sortProgram fs = .ok (s', removed)) :
    ∃ config, s.config.load fs = .ok config ∧ s'.config = config ∧
      removed =
        sub (s.config.getProgramNames sortProgram) (config.getProgramNames sortProgram) := by
  unfold reload at reloaded
  split at reloaded
  · cases reloaded
  · next config loaded =>
      cases reloaded
      exact ⟨config, loaded, rfl, rfl⟩

/-- `Reload` fails exactly when its load does, with the load's failure. -/
theorem reload_eq_error_iff {fs : FileSystem} {s : Supervisor} {err : Failure} :
    s.reload sortProgram fs = .error err ↔ s.config.load fs = .error err := by
  unfold reload
  split <;> simp_all

/-- `Reload` gets past its load whenever the load succeeds. -/
theorem exists_reload_of_load {fs : FileSystem} {s : Supervisor} {config : Config}
    (loaded : s.config.load fs = .ok config) :
    ∃ s' removed, s.reload sortProgram fs = .ok (s', removed) := by
  unfold reload
  rw [loaded]
  exact ⟨_, _, rfl⟩

/-- After a successful `Reload`, an event listener or program of the configuration has a
process under its name, unless `Remove` was called on that name. -/
theorem isSome_find_reload {fs : FileSystem} {s s' : Supervisor} {removed : List String}
    (reloaded : s.reload sortProgram fs = .ok (s', removed)) {entry : ConfigEntry}
    (listed : entry ∈ s'.config.getEventListeners ∨ entry ∈ s'.config.getPrograms sortProgram)
    (kept : ProcessManager.processName entry ∉ removed) :
    (s'.procMgr.find (ProcessManager.processName entry)).isSome := by
  unfold reload at reloaded
  split at reloaded
  · cases reloaded
  · cases reloaded
    simp only [createPrograms, removedPrograms, config_startEventListeners] at listed kept ⊢
    rw [ProcessManager.find_foldl_remove _ kept]
    rcases listed with listener | program
    · exact ProcessManager.isSome_find_foldl_createProcess _ _ (.inl
        (ProcessManager.isSome_find_foldl_createProcess _ _ (.inr ⟨entry, listener, rfl⟩)))
    · exact ProcessManager.isSome_find_foldl_createProcess _ _ (.inr ⟨entry, program, rfl⟩)

/-- After a successful `Reload`, every program of the reloaded configuration has a process,
and `Remove` was called only on names that were programs before the reload and are not
after it. -/
theorem reload_creates_programs (sorted : ∀ programs, (sortProgram programs).Perm programs)
    {fs : FileSystem} {s s' : Supervisor} {removed : List String}
    (reloaded : s.reload sortProgram fs = .ok (s', removed)) :
    (∀ entry ∈ s'.config.getPrograms sortProgram,
        (s'.procMgr.find entry.getProgramName).isSome) ∧
      ∀ name ∈ removed, name ∈ s.config.getProgramNames sortProgram ∧
        name ∉ s'.config.getProgramNames sortProgram := by
  obtain ⟨config, -, same, rfl⟩ := reload_eq_ok sortProgram reloaded
  refine ⟨fun entry listed => ?_, fun name mem => same ▸ (mem_sub _ _ name).mp mem⟩
  have isProgram : entry.isProgram = true :=
    ((Config.mem_getEntries _ _ _).mp ((sorted _).mem_iff.mp listed)).2
  have named : entry.getProgramName ∈ config.getProgramNames sortProgram :=
    List.mem_map_of_mem _ ((sorted _).mem_iff.mpr (same ▸ listed))
  rw [← ProcessManager.processName_of_isProgram isProgram]
  exact isSome_find_reload sortProgram reloaded (.inr listed)
    (by simp [ProcessManager.processName_of_isProgram isProgram, mem_sub, named])

/-- A reload of `[program:a]` into a fresh supervisor. -/
theorem reload_creates_programs_fresh :
    let fs : FileSystem :=
      ⟨fun _ => .ok (IniFile.ofList [("program:a", [("command", "/bin/a")])]), fun _ => none⟩
    ∃ s' removed, (newSupervisor "/etc/supervisord.conf").reload id fs = .ok (s', removed) ∧
      ((∀ entry ∈ s'.config.getPrograms id, (s'.procMgr.find entry.getProgramName).isSome) ∧
        ∀ name ∈ removed, name ∈ (newSupervisor "/etc/supervisord.conf").config.getProgramNames id ∧
          name ∉ s'.config.getProgramNames id) := by
  intro fs
  obtain ⟨s', removed, reloaded⟩ : ∃ s' removed,
      (newSupervisor "/etc/supervisord.conf").reload id fs = .ok (s', removed) := ⟨_, _, rfl⟩
  exact ⟨s', removed, reloaded, reload_creates_programs id (fun _ => List.Perm.refl _) reloaded⟩

/-- After a successful `Reload`, a name has a process exactly when it was not passed to
`Remove` and either had a process before or is the process name of an event listener or a
program of the reloaded configuration. `Remove` runs after the event listeners are created,
so it also deletes the process of a listener named like a program that was dropped. -/
theorem find_reload_iff {fs : FileSystem} {s s' : Supervisor} {removed : List String}
    (reloaded : s.reload sortProgram fs = .ok (s', removed)) (name : String) :
    (s'.procMgr.find name).isSome ↔ name ∉ removed ∧
      ((s.procMgr.find name).isSome ∨
        ∃ entry ∈ s'.config.getEventListeners ++ s'.config.getPrograms sortProgram,
          ProcessManager.processName entry = name) := by
  unfold reload at reloaded
  split at reloaded
  · cases reloaded
  · next config _ =>
      cases reloaded
      simp only [createPrograms, removedPrograms, config_startEventListeners]
      by_cases gone :
          name ∈ sub (s.config.getProgramNames sortProgram) (config.getProgramNames sortProgram)
      · rw [ProcessManager.find_foldl_remove_of_mem _ gone]
        simp [gone]
      · rw [ProcessManager.find_foldl_remove _ gone,
          ProcessManager.isSome_find_foldl_createProcess_iff, startEventListeners,
          ProcessManager.isSome_find_foldl_createProcess_iff]
        simp only [gone, not_false_eq_true, true_and, List.mem_append, or_and_right, exists_or,
          or_assoc]

/-- A first `Reload` of a fresh supervisor. -/
theorem find_reload_iff_fresh :
    let fs : FileSystem :=
      ⟨fun _ => .ok (IniFile.ofList [("program:a", [("command", "/bin/a")])]), fun _ => none⟩
    ∃ s' removed, (newSupervisor "/etc/supervisord.conf").reload id fs = .ok (s', removed) ∧
      ((s'.procMgr.find "a").isSome ↔ "a" ∉ removed ∧
        (((newSupervisor "/etc/supervisord.conf").procMgr.find "a").isSome ∨
          ∃ entry ∈ s'.config.getEventListeners ++ s'.config.getPrograms id,
            ProcessManager.processName entry = "a")) := by
  intro fs
  obtain ⟨s', removed, reloaded⟩ : ∃ s' removed,
      (newSupervisor "/etc/supervisord.conf").reload id fs = .ok (s', removed) := ⟨_, _, rfl⟩
  exact ⟨s', removed, reloaded, find_reload_iff id reloaded "a"⟩

/-- `[program:x]` and then `[eventlistener:x]`: the second `Reload` removes `x`, the name of
the listener's process, after creating it. -/
example :
    let first : FileSystem :=
      ⟨fun _ => .ok (IniFile.ofList [("program:x", [("command", "/bin/x")])]), fun _ => none⟩
    let second : FileSystem :=
      ⟨fun _ => .ok (IniFile.ofList [("eventlistener:x", [("command", "/bin/l")])]),
        fun _ => none⟩
    (((newSupervisor "/etc/supervisord.conf").reload id first).bind fun (s, _) =>
      (s.reload id second).map fun (s', removed) => (removed, (s'.procMgr.find "x").isSome)) =
      .ok (["x"], false) := rfl

/-- The process of every program holds the program entry stored under its name: the
reconciler recreates every program so that a changed key takes effect. -/
def ProgramsSynced (s : Supervisor) : Prop :=
  ∀ name entry, s.config.getProgram name = some entry → s.procMgr.find name = some entry

theorem programsSynced_newSupervisor (path : String) : (newSupervisor path).ProgramsSynced :=
  fun _ _ found => by simp [Config.getProgram, newSupervisor, newConfig, GoMap.empty] at found

/-- A `Reload` from a store whose entries sit where their names allow leaves the process of
every program holding the program entry stored under its name, whatever processes the
supervisor had before and whatever listeners share a name with a program. -/
theorem programsSynced_reload (sorted : ∀ programs, (sortProgram programs).Perm programs)
    {fs : FileSystem} {s s' : Supervisor} {removed : List String}
    (named : Config.KeyNamed s.config.entries)
    (reloaded : s.reload sortProgram fs = .ok (s', removed)) : s'.ProgramsSynced := by
  unfold reload at reloaded
  split at reloaded
  · cases reloaded
  · next config loaded =>
      cases reloaded
      have named' := Config.keyNamed_load named loaded
      intro name entry found
      change config.getProgram name = some entry at found
      rw [Config.getProgram_of_keyNamed named', Option.filter_eq_some] at found
      obtain ⟨stored, program⟩ := found
      have key : entry.getProgramName = name :=
        Config.getProgramName_of_keyNamed named' stored program
      have listed : entry ∈ config.getPrograms sortProgram :=
        (sorted _).mem_iff.mpr ((Config.mem_getEntries _ _ _).mpr ⟨⟨name, stored⟩, program⟩)
      have notRemoved : name ∉
          sub (s.config.getProgramNames sortProgram) (config.getProgramNames sortProgram) := by
        rw [mem_sub, not_and, not_not]
        exact fun _ => key ▸ List.mem_map_of_mem _ ((sorted _).mem_iff.mpr listed)
      have nodup : ((config.getPrograms sortProgram).map ProcessManager.processName).Nodup := by
        have programNames : (config.getPrograms sortProgram).map ProcessManager.processName =
            (config.getPrograms sortProgram).map ConfigEntry.getProgramName :=
          List.map_congr_left fun _ mem => ProcessManager.processName_of_isProgram
            ((Config.mem_getEntries _ _ _).mp ((sorted _).mem_iff.mp mem)).2
        rw [programNames]
        exact ((sorted _).map _).nodup_iff.mpr (Config.nodup_programNames_of_keyNamed named')
      simp only [createPrograms, removedPrograms, config_startEventListeners]
      rw [ProcessManager.find_foldl_remove _ notRemoved, ← key,
        ← ProcessManager.processName_of_isProgram program]
      exact ProcessManager.find_foldl_createProcess _ _ nodup listed

/-- A `Reload` from a configuration that loads to itself gets past its load, removes nothing,
keeps the configuration and keeps every process. -/
theorem reload_of_load_self {fs : FileSystem} {s : Supervisor}
    (fixed : s.config.load fs = .ok s.config) :
    ∃ s', s.reload sortProgram fs = .ok (s', []) ∧ s'.config = s.config ∧
      ∀ name, (s.procMgr.find name).isSome → (s'.procMgr.find name).isSome := by
  have nothing : sub (s.config.getProgramNames sortProgram)
      (s.config.getProgramNames sortProgram) = [] := by
    simp [sub_eq_filter]
  obtain ⟨s', removed, reloaded⟩ := exists_reload_of_load sortProgram fixed
  obtain ⟨config, loaded, same, rfl⟩ := reload_eq_ok sortProgram reloaded
  rw [fixed] at loaded
  cases loaded
  rw [nothing] at reloaded
  refine ⟨s', reloaded, same, fun name found => ?_⟩
  unfold reload at reloaded
  rw [fixed] at reloaded
  obtain ⟨rfl, -⟩ := Prod.mk.inj (Except.ok.inj reloaded)
  simp only [createPrograms, removedPrograms, config_startEventListeners, nothing, List.foldl_nil]
  exact ProcessManager.isSome_find_foldl_createProcess _ _
    (.inl (ProcessManager.isSome_find_foldl_createProcess _ _ (.inl found)))

/-- After a successful `Reload`, a second `Reload` of the unchanged file gets past its load,
removes nothing, keeps the configuration and keeps every process, when no program or event
listener instance of the file is named like a group section. -/
theorem reload_reload {fs : FileSystem} {s s₁ : Supervisor} {removed₁ : List String}
    {cfg : IniFile} (read : s.config.readFile fs = .ok cfg)
    (noGroupInstance : ∀ sec ∈ cfg.sectionList, (Config.isProgramOrEventListener sec).1 = true →
      ∀ i group key, (Config.instanceEnv (Config.programNameOf sec) i group
        s.config.getConfigFileDir).eval (Config.originalProcName sec) = .ok key →
          GoStd.hasPrefix key "group:" = false)
    (first : s.reload sortProgram fs = .ok (s₁, removed₁)) :
    ∃ s₂, s₁.reload sortProgram fs = .ok (s₂, []) ∧ s₂.config = s₁.config ∧
      ∀ name, (s₁.procMgr.find name).isSome → (s₂.procMgr.find name).isSome := by
  obtain ⟨config, loaded, same, -⟩ := reload_eq_ok sortProgram first
  exact reload_of_load_self sortProgram (same ▸ Config.load_of_load read loaded noGroupInstance)

/-- Two reloads of a group, the program it lists, and a daemon section. -/
theorem reload_reload_group :
    let fs : FileSystem := ⟨fun _ => .ok (IniFile.ofList [("group:g", [("programs", "web")]),
      ("program:web", [("command", "/bin/web")]), ("supervisord", [("logfile", "/tmp/s.log")])]),
      fun _ => none⟩
    ∃ cfg s₁ removed₁, (newSupervisor "/etc/supervisord.conf").config.readFile fs = .ok cfg ∧
      (∀ sec ∈ cfg.sectionList, (Config.isProgramOrEventListener sec).1 = true →
        ∀ i group key, (Config.instanceEnv (Config.programNameOf sec) i group
          (newSupervisor "/etc/supervisord.conf").config.getConfigFileDir).eval
            (Config.originalProcName sec) = .ok key → GoStd.hasPrefix key "group:" = false) ∧
      (newSupervisor "/etc/supervisord.conf").reload id fs = .ok (s₁, removed₁) ∧
      ∃ s₂, s₁.reload id fs = .ok (s₂, []) ∧ s₂.config = s₁.config ∧
        ∀ name, (s₁.procMgr.find name).isSome → (s₂.procMgr.find name).isSome := by
  intro fs
  obtain ⟨cfg, read⟩ :
      ∃ cfg, (newSupervisor "/etc/supervisord.conf").config.readFile fs = .ok cfg := ⟨_, rfl⟩
  obtain ⟨s₁, removed₁, first⟩ : ∃ s₁ removed₁,
      (newSupervisor "/etc/supervisord.conf").reload id fs = .ok (s₁, removed₁) := ⟨_, _, rfl⟩
  have named := Config.noGroupInstance_of_plain cfg
    (newSupervisor "/etc/supervisord.conf").config.getConfigFileDir (by cases read; decide)
  exact ⟨cfg, s₁, removed₁, read, named, first, reload_reload id read named first⟩

/-- A fresh supervisor has no programs, so its first `Reload` removes nothing. -/
theorem getProgramNames_newSupervisor (sorted : ∀ programs, (sortProgram programs).Perm programs)
    (path : String) : (newSupervisor path).config.getProgramNames sortProgram = [] := by
  simp [Config.getProgramNames, Config.getPrograms, Config.getEntries, newSupervisor, newConfig,
    GoMap.empty, (sorted []).eq_nil]

/-- At start-up, every event listener section of the file gets a process under the name after
its `eventlistener:` prefix, whatever its `numprocs` and `process_name`: the last pass of
`parse` gives the section an entry of its own, which `startEventListeners` creates. -/
theorem reload_starts_event_listener_sections
    (sorted : ∀ programs, (sortProgram programs).Perm programs)
    {path : String} {fs : FileSystem} {cfg : IniFile} {s' : Supervisor} {removed : List String}
    {sec : Section} (read : (newConfig path).readFile fs = .ok cfg)
    (reloaded : (newSupervisor path).reload sortProgram fs = .ok (s', removed))
    (mem : sec ∈ cfg.sectionList) (listener : GoStd.hasPrefix sec.name "eventlistener:" = true) :
    (s'.procMgr.find (GoStd.dropChars sec.name "eventlistener:".length)).isSome := by
  obtain ⟨config, loaded, rfl, rfl⟩ := reload_eq_ok sortProgram reloaded
  have fresh := getProgramNames_newSupervisor sortProgram sorted path
  obtain ⟨entry, found, named⟩ := Config.lookup_load_other_section read loaded mem
    ⟨GoStd.hasPrefix_eq_false_of_hasPrefix listener ⟨rfl, rfl⟩,
      GoStd.hasPrefix_eq_false_of_hasPrefix listener ⟨rfl, rfl⟩⟩
  have isListener : entry.isEventListener = true := by
    rw [ConfigEntry.isEventListener, ConfigEntry.isKind, named, listener]
  rw [← named, ← ProcessManager.processName_of_isEventListener isListener]
  exact isSome_find_reload sortProgram reloaded
    (.inl ((Config.mem_getEntries _ _ _).mpr ⟨⟨_, found⟩, isListener⟩))
    (by simp [fresh, mem_sub])

/-- `[eventlistener:x]` with `numprocs = 0` still gets the process `x`. -/
theorem reload_starts_event_listener_sections_empty :
    let cfg := IniFile.ofList [("eventlistener:x", [("command", "/bin/listen"), ("numprocs", "0")])]
    let fs : FileSystem := ⟨fun _ => .ok cfg, fun _ => none⟩
    ∃ s' removed, (newSupervisor "/etc/supervisord.conf").reload id fs = .ok (s', removed) ∧
      (s'.procMgr.find "x").isSome := by
  intro cfg fs
  obtain ⟨s', removed, reloaded⟩ : ∃ s' removed,
      (newSupervisor "/etc/supervisord.conf").reload id fs = .ok (s', removed) := ⟨_, _, rfl⟩
  exact ⟨s', removed, reloaded,
    reload_starts_event_listener_sections id (fun _ => List.Perm.refl _)
      (show (newConfig "/etc/supervisord.conf").readFile fs = .ok cfg from rfl) reloaded
      (.tail _ (.head _)) rfl⟩

/-! ### The polling loop -/

/-- The polling loop of `Reload`, with `fuel` rounds from round `k`: once `restarting` is
set it issues `StopAllProcesses` and returns; otherwise it sleeps ten seconds, during which
a `Restart` request sets the flag exactly when `restartDuring k`. `none`: still polling.
The run state of processes is outside the model, so `StopAllProcesses` changes nothing
here. -/
def pollLoop (restartDuring : Nat → Bool) : Nat → Nat → Supervisor → Option Supervisor
  | 0, _, _ => none
  | fuel + 1, k, s =>
      if s.restarting then some s
      else pollLoop restartDuring fuel (k + 1) { s with restarting := restartDuring k }

/-- `Reload` as a whole, with `fuel` rounds of its polling loop: a load that returns an error
returns at once; a load that panics unwinds `Reload` and its caller, so nothing is returned;
and a successful load returns only from the loop. `none`: nothing returned. -/
def reloadRun (fs : FileSystem) (restartDuring : Nat → Bool) (fuel : Nat) (s : Supervisor) :
    Option (Except Failure Supervisor) :=
  match s.reload sortProgram fs with
  | .error (.panic _) => none
  | .error err => some (.error err)
  | .ok (s', _) => (pollLoop restartDuring fuel 0 s').map .ok

/-- The `ReloadConfig` RPC: what `Reload` returns, with `reply.Success` set when it returned
no error. When `Reload` panics, the handler panics too and the server sends no reply. -/
def reloadConfig (fs : FileSystem) (restartDuring : Nat → Bool) (fuel : Nat) (s : Supervisor) :
    Option (Except Failure Supervisor × Bool) :=
  (reloadRun sortProgram fs restartDuring fuel s).map fun result =>
    (result, match result with
      | .ok _ => true
      | .error _ => false)

theorem restarting_reload {fs : FileSystem} {s s' : Supervisor} {removed : List String}
    (reloaded : s.reload sortProgram fs = .ok (s', removed)) : s'.restarting = false := by
  unfold reload at reloaded
  split at reloaded
  · cases reloaded
  · cases reloaded
    rfl

/-- Without a `Restart` request the loop polls for ever: no fuel makes it return. -/
theorem pollLoop_eq_none {restartDuring : Nat → Bool} (noRestart : ∀ k, restartDuring k = false) :
    ∀ (fuel k : Nat) (s : Supervisor), s.restarting = false → pollLoop restartDuring fuel k s = none
  | 0, _, _, _ => rfl
  | fuel + 1, k, s, polling => by
      rw [pollLoop, if_neg (by simp [polling])]
      exact pollLoop_eq_none noRestart fuel (k + 1) _ (noRestart k)

/-- A `Reload` whose load succeeds never returns unless a `Restart` request arrives. -/
theorem reloadRun_eq_none {restartDuring : Nat → Bool} (noRestart : ∀ k, restartDuring k = false)
    {fs : FileSystem} {s : Supervisor} {config : Config} (loaded : s.config.load fs = .ok config)
    (fuel : Nat) : reloadRun sortProgram fs restartDuring fuel s = none := by
  unfold reloadRun
  split
  · next msg failed => cases (reload_eq_error_iff sortProgram).mp failed ▸ loaded
  · next err _ failed => cases (reload_eq_error_iff sortProgram).mp failed ▸ loaded
  · next s' removed reloaded =>
      rw [pollLoop_eq_none noRestart fuel 0 s' (restarting_reload sortProgram reloaded)]
      rfl

/-- The `ReloadConfig` RPC on a file that loads, with no `Restart` request: it does not
return within any number of polling rounds. -/
theorem reloadConfig_never_returns (fuel : Nat) :
    let fs : FileSystem :=
      ⟨fun _ => .ok (IniFile.ofList [("program:a", [("command", "/bin/a")])]), fun _ => none⟩
    (newSupervisor "/etc/supervisord.conf").reloadConfig id fs (fun _ => false) fuel = none := by
  intro fs
  rw [reloadConfig, @reloadRun_eq_none id (fun _ => false) (fun _ => rfl) fs
    (newSupervisor "/etc/supervisord.conf") _ rfl fuel]
  rfl

end Supervisor

end Supervisord

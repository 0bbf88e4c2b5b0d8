import Supervisord.Config.Keys
import Supervisord.Supervisor

/-!
# The daemon's goroutines and the restart flag

`main` creates the supervisor and calls `Reload`, which loads the configuration, starts
the XML-RPC servers and then polls `restarting` every ten seconds. The servers answer each
request on a goroutine of its own: `Restart` sets `restarting`, and `ReloadConfig` calls
`Reload` again, so several calls of `Reload` can poll at once. When `main`'s call returns,
`main` returns and the process exits; when its load fails, `main` panics.

The daemon is a state that the goroutines change one step at a time, and an interleaving
is the list of its steps: a `Restart` request, a call of `Reload` up to its loop
(`Supervisor.reload`), or one poll of one call. A call's only access to the flag before
its loop is clearing it after a load that succeeds, so with respect to the flag that part
of the call is one step; two loads that overlap in time are a data race in Go, and the
model runs them one after the other. A call whose load fails ends there and changes
neither the flag nor the processes. When reading the files fails, the store stays as it was;
when `parse` panics, the store keeps what `parse` wrote before the panic
(`Config.storeAfterLoad`): the HTTP server recovers the panic of a `ReloadConfig` handler,
and a panic of `main`'s call ends the process. The signal handler and `Shutdown` end the
process without touching the flag or the calls, and are left out.

The flag is one boolean that both sides write: `Restart` sets it, and every call of
`Reload` whose load succeeds clears it. Hence:
* without a `Restart` request no call of `Reload` leaves its loop, however the calls and
  polls interleave (`run_without_restart`);
* a `Restart` request reaches a waiting call at its next poll when every call of `Reload`
  that comes between fails to load, unless the process has exited first
  (`restart_reaches_next_poll`);
* a call of `Reload` whose load succeeds between a `Restart` request and a waiting call's
  next poll cancels the request for that call (`reload_cancels_restart`).

The polling loop of one call, `Supervisor.pollLoop`, is the interleaving of that call's
polls with the requests made during its rounds (`run_pollRounds`).

Along every run from start-up, panicking loads included, the configuration keeps each entry
under a key its name allows (`keyNamed_run`). So `GetProgramNames` lists no name twice and
`GetProgram` finds the program entry stored under its name (`run_programNames`), and after
every call of `Reload` whose load succeeds the process of every program holds that entry
(`run_find_program`). A load that panics stores entries and creates no process for them, so
between it and the next successful call a program can have an entry and no process.
-/

namespace Supervisord

/-- Where one call of `Reload` stands: in its polling loop, or returned with its error. -/
inductive ReloadCall where
  | polling
  | returned (err : Option Failure)
  deriving DecidableEq, Repr

/-- The daemon: the supervisor every goroutine shares, and the calls of `Reload` in the
order they were made, `main`'s first. -/
structure Daemon where
  supervisor : Supervisor
  calls : List ReloadCall

/-- One step of one goroutine. -/
inductive Event where
  /-- A `Restart` request. -/
  | restart
  /-- A call of `Reload` up to its polling loop, against the files as they are then:
  `main`'s at start-up, and one for each `ReloadConfig` request. -/
  | reload (fs : FileSystem)
  /-- Call `j` of `Reload` wakes from its ten-second sleep and polls the flag. -/
  | poll (j : Nat)

namespace Daemon

variable (sortProgram : List ConfigEntry → List ConfigEntry)

/-- The process has exited: `main`'s call of `Reload` returned, and `main` with it. -/
def exited (d : Daemon) : Bool :=
  match d.calls[0]? with
  | some (ReloadCall.returned _) => true
  | _ => false

/-- One step. A call of `Reload` whose load fails ends with the failure, and the store keeps
what the load left in it (`Config.storeAfterLoad`): nothing when reading the files fails, and
what `parse` wrote before it panicked otherwise. A poll that finds the flag set issues
`StopAllProcesses`, whose effect on the processes is outside the model, and returns nil.
Once the process has exited nothing runs. -/
def step (d : Daemon) (e : Event) : Daemon :=
  if d.exited then d
  else
    match e with
    | .restart => { d with supervisor := { d.supervisor with restarting := true } }
    | .reload fs =>
        match d.supervisor.reload sortProgram fs with
        | .error err =>
            ⟨{ d.supervisor with config := d.supervisor.config.storeAfterLoad fs },
              d.calls ++ [.returned (some err)]⟩
        | .ok (s, _) => ⟨s, d.calls ++ [.polling]⟩
    | .poll j =>
        if d.calls[j]? = some .polling ∧ d.supervisor.restarting = true then
          { d with calls := d.calls.set j (.returned none) }
        else d

/-- The daemon after the steps of an interleaving, in order. -/
def run (d : Daemon) (events : List Event) : Daemon := events.foldl (step sortProgram) d

/-- `main`: a fresh supervisor for the configuration file, and its call of `Reload`. -/
def main (path : String) (fs : FileSystem) : Daemon :=
  step sortProgram ⟨newSupervisor path, []⟩ (.reload fs)

@[simp] theorem run_nil (d : Daemon) : run sortProgram d [] = d := rfl

@[simp] theorem run_cons (d : Daemon) (e : Event) (events : List Event) :
    run sortProgram d (e :: events) = run sortProgram (step sortProgram d e) events := rfl

theorem run_append (d : Daemon) (first second : List Event) :
    run sortProgram d (first ++ second) = run sortProgram (run sortProgram d first) second :=
  List.foldl_append _ _ _ _

theorem step_of_exited {d : Daemon} (done : d.exited = true) (e : Event) :
    step sortProgram d e = d := by
  unfold step
  rw [if_pos done]

theorem run_of_exited {d : Daemon} (done : d.exited = true) (events : List Event) :
    run sortProgram d events = d := by
  induction events with
  | nil => rfl
  | cons e rest ih => rw [run_cons, step_of_exited sortProgram done, ih]

theorem step_restart {d : Daemon} (running : d.exited = false) :
    step sortProgram d .restart =
      { d with supervisor := { d.supervisor with restarting := true } } := by
  unfold step
  rw [if_neg (by simp [running])]

theorem step_reload_of_ok {d : Daemon} (running : d.exited = false) {fs : FileSystem}
    {s : Supervisor} {removed : List String}
    (reloaded : d.supervisor.reload sortProgram fs = .ok (s, removed)) :
    step sortProgram d (.reload fs) = ⟨s, d.calls ++ [.polling]⟩ := by
  unfold step
  rw [if_neg (by simp [running])]
  dsimp only
  rw [reloaded]

/-- A poll that finds the flag clear changes nothing. -/
theorem step_poll_of_clear {d : Daemon} (clear : d.supervisor.restarting = false) (j : Nat) :
    step sortProgram d (.poll j) = d := by
  unfold step
  split
  · rfl
  · dsimp only
    rw [if_neg fun returns => Bool.false_ne_true (clear.symm.trans returns.2)]

/-- Everything one step can do. -/
theorem step_cases {d d' : Daemon} {e : Event} (stepped : step sortProgram d e = d') :
    d' = d ∨
      (e = .restart ∧ d' = { d with supervisor := { d.supervisor with restarting := true } }) ∨
      (∃ fs err, e = .reload fs ∧ d.supervisor.reload sortProgram fs = .error err ∧
        d' = ⟨{ d.supervisor with config := d.supervisor.config.storeAfterLoad fs },
          d.calls ++ [.returned (some err)]⟩) ∨
      (∃ fs s removed, e = .reload fs ∧
        d.supervisor.reload sortProgram fs = .ok (s, removed) ∧
        d' = ⟨s, d.calls ++ [.polling]⟩) ∨
      (∃ j, e = .poll j ∧ d.calls[j]? = some .polling ∧ d.supervisor.restarting = true ∧
        d' = { d with calls := d.calls.set j (.returned none) }) := by
  subst stepped
  unfold step
  split
  · exact .inl rfl
  · cases e with
    | restart => exact .inr (.inl ⟨rfl, rfl⟩)
    | reload fs =>
        dsimp only
        split
        · next err failed => exact .inr (.inr (.inl ⟨fs, err, rfl, failed, rfl⟩))
        · next s removed reloaded =>
            exact .inr (.inr (.inr (.inl ⟨fs, s, removed, rfl, reloaded, rfl⟩)))
    | poll j =>
        dsimp only
        split
        · next returns =>
            exact .inr (.inr (.inr (.inr ⟨j, rfl, returns.1, returns.2, rfl⟩)))
        · exact .inl rfl

/-! ### What one step does to the calls and to the flag -/

section Step

variable {d : Daemon} {e : Event}

/-- What one step does to the calls: nothing, one more call that has not returned nil, or
the return of a waiting call polled with the flag set. -/
theorem calls_step_cases (d : Daemon) (e : Event) :
    (step sortProgram d e).calls = d.calls ∨
      (∃ call, call ≠ .returned none ∧ (step sortProgram d e).calls = d.calls ++ [call]) ∨
      (∃ j, e = .poll j ∧ d.calls[j]? = some .polling ∧ d.supervisor.restarting = true ∧
        (step sortProgram d e).calls = d.calls.set j (.returned none)) := by
  rcases step_cases sortProgram (d := d) (e := e) rfl with same | ⟨-, same⟩ |
      ⟨_, _, _, _, same⟩ | ⟨_, _, _, _, _, same⟩ | ⟨j, rfl, polling, set, same⟩ <;>
    rw [same]
  · exact .inl rfl
  · exact .inl rfl
  · exact .inr (.inl ⟨_, (fun nil => by cases nil), rfl⟩)
  · exact .inr (.inl ⟨_, (fun nil => by cases nil), rfl⟩)
  · exact .inr (.inr ⟨j, rfl, polling, set, rfl⟩)

/-- A call keeps its state, except that a waiting call polled with the flag set returns nil. -/
theorem getElem?_calls_step {j : Nat} {r : ReloadCall} (call : d.calls[j]? = some r) :
    (step sortProgram d e).calls[j]? = some r ∨
      (r = .polling ∧ e = .poll j ∧ d.supervisor.restarting = true ∧
        (step sortProgram d e).calls[j]? = some (.returned none)) := by
  have within : j < d.calls.length := (List.getElem?_eq_some_iff.mp call).1
  rcases calls_step_cases sortProgram d e with same | ⟨_, -, same⟩ |
      ⟨i, rfl, polling, set, same⟩ <;> rw [same]
  · exact .inl call
  · exact .inl (by rw [List.getElem?_append_left within, call])
  · by_cases polled : i = j
    · subst polled
      rw [call] at polling
      exact .inr ⟨Option.some.inj polling, rfl, set, List.getElem?_set_self within⟩
    · exact .inl (by rw [List.getElem?_set_ne polled, call])

/-- A call returns nil only at a poll that finds the flag set. -/
theorem returned_of_step {j : Nat}
    (returned : (step sortProgram d e).calls[j]? = some (.returned none)) :
    d.calls[j]? = some (.returned none) ∨
      (d.calls[j]? = some .polling ∧ e = .poll j ∧ d.supervisor.restarting = true) := by
  rcases calls_step_cases sortProgram d e with same | ⟨call, notNil, same⟩ |
      ⟨i, rfl, polling, set, same⟩ <;> rw [same] at returned
  · exact .inl returned
  · rw [List.getElem?_append] at returned
    split at returned
    · exact .inl returned
    · exact absurd (List.mem_singleton.mp (List.getElem?_mem returned)).symm notNil
  · rw [List.getElem?_set] at returned
    split at returned
    · next polled => exact .inr ⟨polled ▸ polling, polled ▸ rfl, set⟩
    · exact .inl returned

/-- Only a `Restart` request sets the flag. -/
theorem restarting_step_of_ne_restart (clear : d.supervisor.restarting = false)
    (other : e ≠ .restart) : (step sortProgram d e).supervisor.restarting = false := by
  rcases step_cases sortProgram (d := d) (e := e) rfl with same | ⟨restart, -⟩ |
      ⟨_, _, _, _, same⟩ | ⟨_, s, removed, _, reloaded, same⟩ | ⟨_, _, _, _, same⟩
  · rw [same, clear]
  · exact absurd restart other
  · rw [same]
    exact clear
  · rw [same]
    exact Supervisor.restarting_reload sortProgram reloaded
  · rw [same, clear]

/-- Once the flag is set, only a call of `Reload` whose load succeeds clears it. -/
theorem restarting_step_of_failing (set : d.supervisor.restarting = true)
    (failing : ∀ fs, e = .reload fs → ∃ err, d.supervisor.config.load fs = .error err) :
    (step sortProgram d e).supervisor.restarting = true := by
  rcases step_cases sortProgram (d := d) (e := e) rfl with same | ⟨-, same⟩ |
      ⟨_, _, _, _, same⟩ | ⟨fs, s, removed, reload, reloaded, -⟩ | ⟨_, _, _, _, same⟩
  · rw [same, set]
  · rw [same]
  · rw [same]
    exact set
  · obtain ⟨err, failed⟩ := failing fs reload
    obtain ⟨config, loaded, -⟩ := Supervisor.reload_eq_ok sortProgram reloaded
    cases failed.symm.trans loaded
  · rw [same, set]

/-- A waiting call polled with the flag set returns nil, while the process runs. -/
theorem poll_returns {j : Nat} (running : d.exited = false)
    (polling : d.calls[j]? = some .polling) (set : d.supervisor.restarting = true) :
    (step sortProgram d (.poll j)).calls[j]? = some (.returned none) := by
  unfold step
  rw [if_neg (by simp [running])]
  dsimp only
  rw [if_pos ⟨polling, set⟩]
  exact List.getElem?_set_self (List.getElem?_eq_some_iff.mp polling).1

/-- A call that is waiting or has returned nil, polled with the flag set, has returned nil
afterwards, unless the process has exited. -/
theorem poll_settles {j : Nat}
    (pending : d.calls[j]? = some .polling ∨ d.calls[j]? = some (.returned none))
    (set : d.supervisor.restarting = true) :
    (step sortProgram d (.poll j)).calls[j]? = some (.returned none) ∨
      (step sortProgram d (.poll j)).exited = true := by
  by_cases done : d.exited = true
  · exact .inr (by rw [step_of_exited sortProgram done]; exact done)
  · rcases pending with polling | returned
    · exact .inl (poll_returns sortProgram (Bool.eq_false_iff.mpr done) polling set)
    · exact .inl ((getElem?_calls_step sortProgram returned).resolve_right
        fun ⟨impossible, _⟩ => by cases impossible)

/-- From a configuration that loads the file to itself, a step whose `Reload` calls read that
file keeps the configuration and every process. -/
theorem supervisor_step_of_load_self {fs : FileSystem}
    (fixed : d.supervisor.config.load fs = .ok d.supervisor.config)
    (sameFile : ∀ fs', e = .reload fs' → fs' = fs) :
    (step sortProgram d e).supervisor.config = d.supervisor.config ∧
      ∀ name, (d.supervisor.procMgr.find name).isSome →
        ((step sortProgram d e).supervisor.procMgr.find name).isSome := by
  rcases step_cases sortProgram (d := d) (e := e) rfl with same | ⟨-, same⟩ |
      ⟨fs', err, reload, failed, -⟩ | ⟨fs', s, removed, reload, reloaded, same⟩ |
      ⟨_, _, _, _, same⟩
  · rw [same]
    exact ⟨rfl, fun _ => id⟩
  · rw [same]
    exact ⟨rfl, fun _ => id⟩
  · obtain rfl := sameFile fs' reload
    cases fixed.symm.trans ((Supervisor.reload_eq_error_iff sortProgram).mp failed)
  · rw [same]
    obtain rfl := sameFile fs' reload
    obtain ⟨s', again, kept, procs⟩ := Supervisor.reload_of_load_self sortProgram fixed
    obtain ⟨rfl, -⟩ := Prod.mk.inj (Except.ok.inj (reloaded.symm.trans again))
    exact ⟨kept, procs⟩
  · rw [same]
    exact ⟨rfl, fun _ => id⟩

/-- A step keeps the configuration, or is a call of `Reload` that leaves the store its load
left, whether the load returned or panicked. -/
theorem config_step_cases :
    (step sortProgram d e).supervisor.config = d.supervisor.config ∨
      ∃ fs, e = .reload fs ∧
        (step sortProgram d e).supervisor.config = d.supervisor.config.storeAfterLoad fs := by
  rcases step_cases sortProgram (d := d) (e := e) rfl with same | ⟨-, same⟩ |
      ⟨fs, _, reload, _, same⟩ | ⟨fs, s, removed, reload, reloaded, same⟩ | ⟨_, _, _, _, same⟩ <;>
    rw [same]
  · exact .inl rfl
  · exact .inl rfl
  · exact .inr ⟨fs, reload, rfl⟩
  · obtain ⟨config, loaded, kept, -⟩ := Supervisor.reload_eq_ok sortProgram reloaded
    exact .inr ⟨fs, reload, by rw [kept, Config.storeAfterLoad_of_load loaded]⟩
  · exact .inl rfl

theorem configFile_step :
    (step sortProgram d e).supervisor.config.configFile = d.supervisor.config.configFile := by
  rcases config_step_cases sortProgram (d := d) (e := e) with same | ⟨fs, _, left⟩
  · rw [same]
  · rw [left, Config.configFile_storeAfterLoad]

/-- Every step keeps each entry of the configuration under a key its name allows. -/
theorem keyNamed_step (named : Config.KeyNamed d.supervisor.config.entries) :
    Config.KeyNamed (step sortProgram d e).supervisor.config.entries := by
  rcases config_step_cases sortProgram (d := d) (e := e) with same | ⟨fs, _, left⟩
  · rw [same]
    exact named
  · rw [left]
    exact Config.keyNamed_storeAfterLoad named fs

/-- No step removes a program from the group index. -/
theorem isSome_lookup_step {program : String}
    (mapped : (d.supervisor.config.programGroup.processGroup.lookup program).isSome) :
    ((step sortProgram d e).supervisor.config.programGroup.processGroup.lookup program).isSome := by
  rcases config_step_cases sortProgram (d := d) (e := e) with same | ⟨fs, _, left⟩
  · rw [same]
    exact mapped
  · rw [left]
    exact Config.isSome_lookup_storeAfterLoad fs mapped

/-- A call of `Reload` whose load succeeds, from a state whose entries sit where their names
allow, leaves the process of every program holding the program entry stored under its name. -/
theorem programsSynced_step_reload (sorted : ∀ programs, (sortProgram programs).Perm programs)
    (running : d.exited = false) (named : Config.KeyNamed d.supervisor.config.entries)
    {fs : FileSystem} {config : Config} (loaded : d.supervisor.config.load fs = .ok config) :
    (step sortProgram d (.reload fs)).supervisor.ProgramsSynced := by
  obtain ⟨s, removed, reloaded⟩ := Supervisor.exists_reload_of_load sortProgram loaded
  rw [step_reload_of_ok sortProgram running reloaded]
  exact Supervisor.programsSynced_reload sortProgram sorted named reloaded

end Step

/-! ### Every interleaving -/

section Run

variable {d : Daemon} {events : List Event}

/-- A call that has returned stays returned. -/
theorem getElem?_calls_run_of_returned {j : Nat} {err : Option Failure}
    (returned : d.calls[j]? = some (.returned err)) :
    (run sortProgram d events).calls[j]? = some (.returned err) := by
  induction events generalizing d with
  | nil => exact returned
  | cons e rest ih =>
      refine ih ?_
      rcases getElem?_calls_step sortProgram (e := e) returned with kept | ⟨polling, -⟩
      · exact kept
      · cases polling

/-- What no interleaving without a `Restart` request changes: the flag stays clear, every
waiting call keeps waiting, and no call returns nil. -/
structure Quiet (d d' : Daemon) : Prop where
  clear : d'.supervisor.restarting = false
  waiting : ∀ j : Nat, d.calls[j]? = some .polling → d'.calls[j]? = some .polling
  noReturn : ∀ j : Nat, d'.calls[j]? = some (.returned none) →
    d.calls[j]? = some (.returned none)

theorem quiet_step {d₀ : Daemon} (quiet : Quiet d₀ d) {e : Event} (other : e ≠ .restart) :
    Quiet d₀ (step sortProgram d e) where
  clear := restarting_step_of_ne_restart sortProgram quiet.clear other
  waiting j polling := by
    rcases getElem?_calls_step sortProgram (e := e) (quiet.waiting j polling) with kept |
        ⟨-, -, set, -⟩
    · exact kept
    · exact absurd (quiet.clear.symm.trans set) Bool.false_ne_true
  noReturn j returned := by
    rcases returned_of_step sortProgram returned with kept | ⟨-, -, set⟩
    · exact quiet.noReturn j kept
    · exact absurd (quiet.clear.symm.trans set) Bool.false_ne_true

theorem quiet_run {d₀ : Daemon} (quiet : Quiet d₀ d) (noRestart : Event.restart ∉ events) :
    Quiet d₀ (run sortProgram d events) := by
  induction events generalizing d with
  | nil => exact quiet
  | cons e rest ih =>
      rw [List.mem_cons, not_or] at noRestart
      exact ih (quiet_step sortProgram quiet (Ne.symm noRestart.1)) noRestart.2

/-- Without a `Restart` request, however the calls of `Reload` and their polls interleave,
the flag stays clear, every call that waits in its loop keeps waiting, and no call returns
nil: each `ReloadConfig` request whose load succeeds adds one more call that never replies. -/
theorem run_without_restart (clear : d.supervisor.restarting = false)
    (noRestart : Event.restart ∉ events) :
    (run sortProgram d events).supervisor.restarting = false ∧
      (∀ j : Nat, d.calls[j]? = some .polling →
        (run sortProgram d events).calls[j]? = some .polling) ∧
      ∀ j : Nat, (run sortProgram d events).calls[j]? = some (.returned none) →
        d.calls[j]? = some (.returned none) :=
  let quiet := quiet_run sortProgram ⟨clear, fun _ => id, fun _ => id⟩ noRestart
  ⟨quiet.clear, quiet.waiting, quiet.noReturn⟩

/-- `main` leaves the flag clear: a fresh supervisor's is, and so is a reloaded one's. -/
theorem restarting_main (path : String) (fs : FileSystem) :
    (main sortProgram path fs).supervisor.restarting = false :=
  restarting_step_of_ne_restart sortProgram rfl Event.noConfusion

/-- At start-up, without a `Restart` request, `main`'s call and a `ReloadConfig` call wait
for ever. -/
theorem run_without_restart_main :
    let fs : FileSystem :=
      ⟨fun _ => .ok (IniFile.ofList [("program:a", [("command", "/bin/a")])]), fun _ => none⟩
    let d := main id "/etc/supervisord.conf" fs
    let d' := run id d [.reload fs, .poll 0, .poll 1]
    d'.supervisor.restarting = false ∧
      (∀ j : Nat, d.calls[j]? = some .polling → d'.calls[j]? = some .polling) ∧
      ∀ j : Nat, d'.calls[j]? = some (.returned none) → d.calls[j]? = some (.returned none) :=
  run_without_restart id (restarting_main id _ _) (by simp)

/-- A waiting call stays waiting or returns nil, whatever the interleaving. -/
theorem pending_run {j : Nat}
    (pending : d.calls[j]? = some .polling ∨ d.calls[j]? = some (.returned none)) :
    (run sortProgram d events).calls[j]? = some .polling ∨
      (run sortProgram d events).calls[j]? = some (.returned none) := by
  rcases pending with polling | returned
  · induction events generalizing d with
    | nil => exact .inl polling
    | cons e rest ih =>
        rw [run_cons]
        rcases getElem?_calls_step sortProgram (e := e) polling with kept | ⟨-, -, -, returned⟩
        · exact ih kept
        · exact .inr (getElem?_calls_run_of_returned sortProgram returned)
  · exact .inr (getElem?_calls_run_of_returned sortProgram returned)

/-- Once the flag is set, steps in which every call of `Reload` fails to load leave it set:
whether a load fails depends only on the files and the configuration file, which no step
changes. -/
theorem restarting_run_of_failing (set : d.supervisor.restarting = true)
    (failing : ∀ fs, Event.reload fs ∈ events →
      ∃ err, d.supervisor.config.load fs = .error err) :
    (run sortProgram d events).supervisor.restarting = true := by
  induction events generalizing d with
  | nil => exact set
  | cons e rest ih =>
      have still := restarting_step_of_failing sortProgram set fun fs reload =>
        failing fs (reload ▸ List.mem_cons_self e rest)
      exact ih still fun fs later =>
        let ⟨err, failed⟩ := failing fs (List.mem_cons_of_mem e later)
        ⟨err, Config.load_eq_error_congr (configFile_step sortProgram) failed⟩

/-- A `Restart` request reaches a waiting call at its next poll when every call of `Reload`
that comes between fails to load: the call returns nil, unless the process has exited first
because `main`'s call returned. -/
theorem restart_reaches_next_poll {j : Nat} (polling : d.calls[j]? = some .polling)
    (failing : ∀ fs, Event.reload fs ∈ events →
      ∃ err, d.supervisor.config.load fs = .error err) :
    (run sortProgram d (.restart :: events ++ [.poll j])).calls[j]? = some (.returned none) ∨
      (run sortProgram d (.restart :: events ++ [.poll j])).exited = true := by
  rw [List.cons_append, run_cons, run_append, run_cons, run_nil]
  by_cases done : d.exited = true
  · rw [step_of_exited sortProgram done, run_of_exited sortProgram done,
      step_of_exited sortProgram done]
    exact .inr done
  · have restarted := step_restart sortProgram (Bool.eq_false_iff.mpr done)
    have kept := restarting_run_of_failing sortProgram (d := step sortProgram d .restart)
      (by rw [restarted]) (by rw [restarted]; exact failing)
    exact poll_settles sortProgram
      (pending_run sortProgram (.inl (by rw [restarted]; exact polling))) kept

/-- A `Restart` request reaches the second call at its next poll, past a `ReloadConfig`
request whose file is missing. -/
theorem restart_reaches_next_poll_second :
    let missing : FileSystem :=
      ⟨fun _ => .error "open /etc/supervisord.conf: no such file", fun _ => none⟩
    let d : Daemon := ⟨newSupervisor "/etc/supervisord.conf", [.polling, .polling]⟩
    let d' := run id d (.restart :: [.reload missing] ++ [.poll 1])
    d'.calls[1]? = some (.returned none) ∨ d'.exited = true :=
  restart_reaches_next_poll id rfl fun _ mem => by
    obtain rfl := Event.reload.inj (List.mem_singleton.mp mem)
    exact ⟨_, rfl⟩

/-- Once the configuration loads the file to itself, no interleaving of `Restart` requests,
polls and calls of `Reload` on that file changes the configuration or loses a process. -/
theorem run_of_load_self {fs : FileSystem}
    (fixed : d.supervisor.config.load fs = .ok d.supervisor.config)
    (sameFile : ∀ fs', Event.reload fs' ∈ events → fs' = fs) :
    (run sortProgram d events).supervisor.config = d.supervisor.config ∧
      ∀ name, (d.supervisor.procMgr.find name).isSome →
        ((run sortProgram d events).supervisor.procMgr.find name).isSome := by
  induction events generalizing d with
  | nil => exact ⟨rfl, fun _ => id⟩
  | cons e rest ih =>
      obtain ⟨kept, procs⟩ := supervisor_step_of_load_self sortProgram fixed fun fs' reload =>
        sameFile fs' (reload ▸ List.mem_cons_self e rest)
      obtain ⟨kept', procs'⟩ := ih (by rw [kept]; exact fixed) fun fs' mem =>
        sameFile fs' (List.mem_cons_of_mem e mem)
      rw [run_cons]
      exact ⟨kept'.trans kept, fun name found => procs' name (procs name found)⟩

/-- After `main`'s first load of a program: a second call of `Reload`, polls and a `Restart`
that returns the second call. -/
theorem run_of_load_self_main :
    let fs : FileSystem :=
      ⟨fun _ => .ok (IniFile.ofList [("program:web", [("command", "/bin/web")])]), fun _ => none⟩
    let events := [Event.reload fs, .poll 0, .restart, .poll 1]
    ((main id "/etc/supervisord.conf" fs).supervisor.config.load fs =
        .ok (main id "/etc/supervisord.conf" fs).supervisor.config ∧
      ∀ fs', Event.reload fs' ∈ events → fs' = fs) ∧
    (run id (main id "/etc/supervisord.conf" fs) events).supervisor.config =
        (main id "/etc/supervisord.conf" fs).supervisor.config ∧
      ∀ name, ((main id "/etc/supervisord.conf" fs).supervisor.procMgr.find name).isSome →
        ((run id (main id "/etc/supervisord.conf" fs) events).supervisor.procMgr.find name).isSome := by
  intro fs events
  have fixed : (main id "/etc/supervisord.conf" fs).supervisor.config.load fs =
      .ok (main id "/etc/supervisord.conf" fs).supervisor.config := by rfl
  have sameFile : ∀ fs', Event.reload fs' ∈ events → fs' = fs := fun _ mem => by
    simpa [events] using mem
  exact ⟨⟨fixed, sameFile⟩, run_of_load_self id fixed sameFile⟩

theorem keyNamed_run (named : Config.KeyNamed d.supervisor.config.entries) :
    Config.KeyNamed (run sortProgram d events).supervisor.config.entries := by
  induction events generalizing d with
  | nil => exact named
  | cons e rest ih => exact ih (keyNamed_step sortProgram named)

theorem isSome_lookup_run {program : String}
    (mapped : (d.supervisor.config.programGroup.processGroup.lookup program).isSome) :
    ((run sortProgram d events).supervisor.config.programGroup.processGroup.lookup
      program).isSome := by
  induction events generalizing d with
  | nil => exact mapped
  | cons e rest ih => exact ih (isSome_lookup_step sortProgram mapped)

/-- While the files the calls of `Reload` read have no `group:` section, the group index
changes only by defaults. -/
theorem defaults_run
    (ungrouped : ∀ fs cfg, Event.reload fs ∈ events → d.supervisor.config.readFile fs = .ok cfg →
      ∀ sec ∈ cfg.sectionList, GoStd.hasPrefix sec.name "group:" = false) :
    ProcessGroup.Defaults d.supervisor.config.programGroup
      (run sortProgram d events).supervisor.config.programGroup := by
  induction events generalizing d with
  | nil => exact ProcessGroup.Defaults.refl _
  | cons e rest ih =>
      have first : ProcessGroup.Defaults d.supervisor.config.programGroup
          (step sortProgram d e).supervisor.config.programGroup := by
        rcases config_step_cases sortProgram (d := d) (e := e) with same | ⟨fs, rfl, left⟩
        · rw [same]
          exact ProcessGroup.Defaults.refl _
        · rw [left]
          exact Config.defaults_storeAfterLoad_of_ungrouped
            (ungrouped fs · (List.mem_cons_self _ _))
      refine first.trans (ih fun fs cfg mem read => ungrouped fs cfg (List.mem_cons_of_mem _ mem) ?_)
      rwa [Config.readFile_congr (configFile_step sortProgram)] at read

/-- In every state the daemon reaches from start-up, whatever files its calls of `Reload`
read, `GetProgramNames` lists no name twice and `GetProgram` finds exactly the program entry
stored under the name it is asked for. -/
theorem run_programNames (sorted : ∀ programs, (sortProgram programs).Perm programs)
    (path : String) (events : List Event) :
    ((run sortProgram ⟨newSupervisor path, []⟩ events).supervisor.config.getProgramNames
        sortProgram).Nodup ∧
      ∀ name, (run sortProgram ⟨newSupervisor path, []⟩ events).supervisor.config.getProgram name =
        ((run sortProgram ⟨newSupervisor path, []⟩ events).supervisor.config.entries.lookup
          name).filter ConfigEntry.isProgram := by
  have named : Config.KeyNamed
      (run sortProgram ⟨newSupervisor path, []⟩ events).supervisor.config.entries :=
    keyNamed_run sortProgram Config.keyNamed_empty
  exact ⟨Config.nodup_getProgramNames_of_keyNamed sorted named,
    Config.getProgram_of_keyNamed named⟩

/-- The sort `id`, through a start-up load, a restart and a second load of another file. -/
theorem run_programNames_id :
    let fs : FileSystem :=
      ⟨fun _ => .ok (IniFile.ofList [("program:web", [("command", "/bin/web")])]), fun _ => none⟩
    let fs' : FileSystem := ⟨fun _ => .ok (IniFile.ofList []), fun _ => none⟩
    let events := [Event.reload fs, .restart, .reload fs', .poll 0]
    (∀ programs : List ConfigEntry, (id programs).Perm programs) ∧
      ((run id ⟨newSupervisor "/etc/supervisord.conf", []⟩ events).supervisor.config.getProgramNames
          id).Nodup ∧
        ∀ name,
          (run id ⟨newSupervisor "/etc/supervisord.conf", []⟩ events).supervisor.config.getProgram
              name =
            ((run id ⟨newSupervisor "/etc/supervisord.conf", []⟩ events).supervisor.config.entries.lookup
              name).filter ConfigEntry.isProgram := by
  intro fs fs' events
  exact ⟨fun _ => List.Perm.refl _,
    run_programNames id (fun _ => List.Perm.refl _) "/etc/supervisord.conf" events⟩

/-- From every state the daemon reaches from start-up, whatever files its calls of `Reload`
read and however they interleave with `Restart` requests and polls, a call of `Reload` whose
load succeeds leaves the process of every program the one created from the entry `GetProgram`
returns for the program's name. -/
theorem run_find_program (sorted : ∀ programs, (sortProgram programs).Perm programs)
    (path : String) (events : List Event)
    (running : (run sortProgram ⟨newSupervisor path, []⟩ events).exited = false)
    {fs : FileSystem} {config : Config}
    (loaded : (run sortProgram ⟨newSupervisor path, []⟩ events).supervisor.config.load fs =
      .ok config)
    (name : String) (entry : ConfigEntry)
    (program : (run sortProgram ⟨newSupervisor path, []⟩
      (events ++ [.reload fs])).supervisor.config.getProgram name = some entry) :
    (run sortProgram ⟨newSupervisor path, []⟩ (events ++ [.reload fs])).supervisor.procMgr.find
      name = some entry := by
  rw [run_append, run_cons, run_nil] at program ⊢
  exact programsSynced_step_reload sortProgram sorted running
    (keyNamed_run sortProgram Config.keyNamed_empty) loaded name entry program

/-- A program whose command changes between two calls of `Reload`: its process takes the
new entry. -/
theorem run_find_program_changed :
    let fs : FileSystem :=
      ⟨fun _ => .ok (IniFile.ofList [("program:web", [("command", "/bin/web")])]), fun _ => none⟩
    let fs' : FileSystem :=
      ⟨fun _ => .ok (IniFile.ofList [("program:web", [("command", "/bin/web2")])]), fun _ => none⟩
    let events := [Event.reload fs, .restart]
    let d := run id ⟨newSupervisor "/etc/supervisord.conf", []⟩ (events ++ [.reload fs'])
    (∀ programs : List ConfigEntry, (id programs).Perm programs) ∧
      (run id ⟨newSupervisor "/etc/supervisord.conf", []⟩ events).exited = false ∧
      (∃ config, (run id ⟨newSupervisor "/etc/supervisord.conf", []⟩ events).supervisor.config.load
        fs' = .ok config) ∧
      ∃ entry, d.supervisor.config.getProgram "web" = some entry ∧
        entry.getString "command" "" = "/bin/web2" ∧ d.supervisor.procMgr.find "web" = some entry := by
  intro fs fs' events d
  obtain ⟨entry, program⟩ := Option.isSome_iff_exists.mp
    (by decide : (d.supervisor.config.getProgram "web").isSome = true)
  have command : (d.supervisor.config.getProgram "web").map (·.getString "command" "") =
      some "/bin/web2" := by decide
  rw [program] at command
  obtain ⟨config, loaded⟩ : ∃ config, (run id ⟨newSupervisor "/etc/supervisord.conf", []⟩
      events).supervisor.config.load fs' = .ok config := ⟨_, rfl⟩
  exact ⟨fun _ => List.Perm.refl _, rfl, ⟨config, loaded⟩, entry, program, Option.some.inj command,
    run_find_program id (fun _ => List.Perm.refl _) "/etc/supervisord.conf" events rfl loaded
      "web" entry program⟩

/-- A `ReloadConfig` request on a file with `[program:new]` before a `[program:bad]` that
panics: the store keeps the entry of `new`, and `new` gets no process until a later call of
`Reload` succeeds. -/
example :
    let fs : FileSystem :=
      ⟨fun _ => .ok (IniFile.ofList [("program:web", [("command", "/bin/web")])]), fun _ => none⟩
    let panicking : FileSystem := ⟨fun _ => .ok (IniFile.ofList
      [("program:new", [("command", "/bin/new")]),
        ("program:bad", [("command", "/bin/bad"), ("numprocs", "2")])]), fun _ => none⟩
    let d := run id ⟨newSupervisor "/etc/supervisord.conf", []⟩ [.reload fs, .reload panicking]
    (d.supervisor.config.getProgram "new").isSome = true ∧
      (d.supervisor.procMgr.find "new").isSome = false := by
  decide

/-- Along every interleaving no program leaves the group index. While the files the calls
of `Reload` read have no `group:` section, every program stays in the group it was in,
though no section of those files puts it there. -/
theorem run_keeps_groups (program : String) :
    ((d.supervisor.config.programGroup.processGroup.lookup program).isSome →
      ((run sortProgram d events).supervisor.config.programGroup.processGroup.lookup
        program).isSome) ∧
    ((∀ fs cfg, Event.reload fs ∈ events → d.supervisor.config.readFile fs = .ok cfg →
        ∀ sec ∈ cfg.sectionList, GoStd.hasPrefix sec.name "group:" = false) →
      ∀ group, d.supervisor.config.programGroup.inGroup program group = true →
        (run sortProgram d events).supervisor.config.programGroup.inGroup program group = true) :=
  ⟨isSome_lookup_run sortProgram, fun ungrouped _ grouped =>
    (ProcessGroup.inGroup_iff _ _ _).mpr ((defaults_run sortProgram ungrouped).kept _ _
      ((ProcessGroup.inGroup_iff _ _ _).mp grouped))⟩

/-- A program whose group section is taken out of the file stays in the group. -/
theorem run_keeps_groups_dropped :
    let grouped : FileSystem := ⟨fun _ => .ok (IniFile.ofList [("group:g", [("programs", "web")]),
      ("program:web", [("command", "/bin/web")])]), fun _ => none⟩
    let plain : FileSystem :=
      ⟨fun _ => .ok (IniFile.ofList [("program:web", [("command", "/bin/web")])]), fun _ => none⟩
    let d := main id "/etc/supervisord.conf" grouped
    let events := [Event.reload plain, .poll 0]
    (∀ fs cfg, Event.reload fs ∈ events → d.supervisor.config.readFile fs = .ok cfg →
        ∀ sec ∈ cfg.sectionList, GoStd.hasPrefix sec.name "group:" = false) ∧
      d.supervisor.config.programGroup.inGroup "web" "g" = true ∧
      (run id d events).supervisor.config.programGroup.inGroup "web" "g" = true := by
  intro grouped plain d events
  have ungrouped : ∀ fs cfg, Event.reload fs ∈ events → d.supervisor.config.readFile fs = .ok cfg →
      ∀ sec ∈ cfg.sectionList, GoStd.hasPrefix sec.name "group:" = false := by
    intro fs cfg mem read
    obtain rfl : fs = plain := by simpa [events] using mem
    cases read
    decide
  have inGroup : d.supervisor.config.programGroup.inGroup "web" "g" = true := by decide
  exact ⟨ungrouped, inGroup, (run_keeps_groups id "web").2 ungrouped "g" inGroup⟩

end Run

/-! ### One call's polling loop -/

/-- The steps of `fuel` rounds of call `j`'s polling loop from round `k`: its poll, then a
`Restart` request during its ten-second sleep when `restartDuring k`. -/
def pollRounds (restartDuring : Nat → Bool) (j : Nat) : Nat → Nat → List Event
  | 0, _ => []
  | fuel + 1, k =>
      .poll j ::
        ((if restartDuring k then [.restart] else []) ++ pollRounds restartDuring j fuel (k + 1))

/-- The sleep of one round: the flag becomes what `restartDuring` says, as in `pollLoop`. -/
theorem run_sleep {d : Daemon} (running : d.exited = false)
    (clear : d.supervisor.restarting = false) (restart : Bool) :
    run sortProgram d (if restart then [.restart] else []) =
      ⟨{ d.supervisor with restarting := restart }, d.calls⟩ := by
  cases restart
  · obtain ⟨⟨config, procMgr, restarting⟩, calls⟩ := d
    subst clear
    rfl
  · exact step_restart sortProgram running

/-- The polling loop of one call, `Supervisor.pollLoop`, is the interleaving of that call's
polls with the `Restart` requests of its rounds: after `fuel` rounds the call has returned
nil exactly when the loop returns within them. -/
theorem run_pollRounds {restartDuring : Nat → Bool} {j : Nat} :
    ∀ (fuel k : Nat) (d : Daemon), d.exited = false → d.calls[j]? = some .polling →
      (run sortProgram d (pollRounds restartDuring j fuel k)).calls[j]? =
        some ((Supervisor.pollLoop restartDuring fuel k d.supervisor).elim .polling
          fun _ => .returned none)
  | 0, _, _, _, polling => polling
  | fuel + 1, k, d, running, polling => by
      rw [pollRounds, run_cons, Supervisor.pollLoop]
      by_cases set : d.supervisor.restarting = true
      · rw [if_pos set]
        exact getElem?_calls_run_of_returned sortProgram
          (poll_returns sortProgram running polling set)
      · have clear := Bool.eq_false_iff.mpr set
        rw [if_neg set, step_poll_of_clear sortProgram clear, run_append,
          run_sleep sortProgram running clear]
        exact run_pollRounds fuel (k + 1) _ running polling

/-- `main`'s loop, with a `Restart` request during its second round, returns at its third
poll. -/
theorem run_pollRounds_main :
    let d : Daemon := ⟨newSupervisor "/etc/supervisord.conf", [.polling]⟩
    (run id d (pollRounds (fun k => k == 1) 0 3 0)).calls[0]? =
      some ((Supervisor.pollLoop (fun k => k == 1) 3 0 d.supervisor).elim .polling
        fun _ => .returned none) :=
  run_pollRounds id 3 0 _ rfl rfl

end Daemon

end Supervisord

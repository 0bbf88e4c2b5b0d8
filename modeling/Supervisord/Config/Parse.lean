import Supervisord.Config.Store

/-!
# Parsing a loaded file into the store

`Config.parse` makes three passes over the sections of a loaded file:

* `parseGroup` resolves each `group:` section to an entry and adds each name of
  its comma-separated `programs` list to the group index;
* `parseProgram` expands each `program:` and `eventlistener:` section into
  `numprocs` instance entries, keyed by the evaluated `process_name`; it writes
  the evaluated `command`, `process_name`, `numprocs_start` and `process_num`
  back into the section before copying the section into the instance entry;
* the last pass copies every section that starts neither with `group:` nor
  with `program:` into an entry under the section's own name.

`parseProgram` logs a warning when `numprocs > 1` and the name has no
`%(process_num)` placeholder. The warning reads the value of the
`process_name` key even when the key is absent, which dereferences a nil
pointer; the model returns that run-time fault as `Failure.panic`.

`numprocs` is read with go-ini's `Int`, modelled by `GoStd.atoi` (base-prefixed
literals such as `0x10` are not modelled); a value that does not parse counts
as 1.

`parseInstance_cases` says once what one instance can do. From it, `writes_parse`
shows that a parse keeps every entry of the store and changes only the keys the
file names: a section's name, or an evaluation of a program section's instance
name (`Written`).
-/

namespace Supervisord

/-- How a Go call can end without a result: a returned `error`, or a run-time panic. -/
inductive Failure where
  | error (msg : String)
  | panic (msg : String)
  deriving DecidableEq, Repr

namespace Config

/-! ### `parseGroup` -/

/-- One iteration of `parseGroup`. -/
def parseGroupSection (c : Config) (sec : Section) : Config :=
  if GoStd.hasPrefix sec.name "group:" then
    let entry := (c.createEntry sec.name c.getConfigFileDir).parse sec
    let groupName := entry.getGroupName
    { c with
      entries := c.entries.set sec.name entry
      programGroup := entry.getPrograms.foldl (fun pg program => pg.add groupName program)
        c.programGroup }
  else c

/-- `parseGroup`. -/
def parseGroup (c : Config) (cfg : IniFile) : Config := cfg.sectionList.foldl parseGroupSection c

/-! ### `parseProgram` -/

/-- `isProgramOrEventListener`: whether the section is a program or an event
listener, and its section prefix. -/
def isProgramOrEventListener (sec : Section) : Bool × String :=
  let isProgram := GoStd.hasPrefix sec.name "program:"
  let isEventListener := GoStd.hasPrefix sec.name "eventlistener:"
  (isProgram || isEventListener,
    if isProgram then "program:" else if isEventListener then "eventlistener:" else "")

/-- The bindings of the instance loop for instance `i`. -/
def instanceEnv (programName : String) (i : Nat) (group here : String) : StringExpression :=
  ⟨[("program_name", programName), ("process_num", toString i), ("group_name", group),
    ("here", here)]⟩

/-- One iteration of the instance loop of `parseProgram`, for instance `i`. -/
def parseInstance (kind programName originalProcName : String) (i : Nat)
    (state : Config × Section) : Config × Section :=
  let c := { state.1 with programGroup := (state.1.programGroup.getGroup programName programName).2 }
  let envs := instanceEnv programName i
    (state.1.programGroup.getGroup programName programName).1 c.getConfigFileDir
  let command := state.2.key "command"
  match envs.eval command.1 with
  | .error _ => (c, command.2)
  | .ok cmd =>
      let sec := command.2.newKey "command" cmd
      match envs.eval originalProcName with
      | .error _ => (c, sec)
      | .ok procName =>
          let sec := ((sec.newKey "process_name" procName).newKey "numprocs_start"
            (toString (i - 1))).newKey "process_num" (toString i)
          let entry := (c.createEntry procName c.getConfigFileDir).parse sec
          let group := c.programGroup.getGroup programName programName
          let entry := { entry with name := kind ++ procName, group := group.1 }
          ({ c with programGroup := group.2, entries := c.entries.set procName entry }, sec)

/-- The instance loop `for i := first; i < first + remaining; i++`. -/
def instanceLoop (kind programName originalProcName : String) :
    Nat → Nat → Config × Section → Config × Section
  | 0, _, state => state
  | remaining + 1, i, state =>
      instanceLoop kind programName originalProcName remaining (i + 1)
        (parseInstance kind programName originalProcName i state)

/-- The number of instances `numprocs` asks for: its value, or 1 when it does not parse. -/
def numProcsOf (numprocs : String) : Int := (GoStd.atoi numprocs).getD 1

/-- The program name of a program or event listener section. -/
def programNameOf (sec : Section) : String :=
  GoStd.dropChars sec.name (isProgramOrEventListener sec).2.length

/-- One iteration of `parseProgram`: the section expanded into its instances. -/
def parseProgramSection (c : Config) (sec : Section) : Except Failure (Config × Section) :=
  if (isProgramOrEventListener sec).1 then
    let numprocs := sec.key "numprocs"
    let numProcs := numProcsOf numprocs.1
    let procNameKey := numprocs.2.getKey "process_name"
    if 1 < numProcs ∧ procNameKey = none then
      .error (.panic "invalid memory address or nil pointer dereference")
    else
      .ok (instanceLoop (isProgramOrEventListener sec).2 (programNameOf sec)
        (procNameKey.getD (programNameOf sec)) numProcs.toNat 1 (c, numprocs.2))
  else .ok (c, sec)

/-- One iteration of `parseProgram`, which also collects the sections as it left them. -/
def parseProgramStep (state : Config × List Section) (sec : Section) :
    Except Failure (Config × List Section) := do
  let parsed ← parseProgramSection state.1 sec
  pure (parsed.1, state.2 ++ [parsed.2])

/-- `parseProgram`; it also returns the sections as it left them. -/
def parseProgram (c : Config) (cfg : IniFile) : Except Failure (Config × List Section) :=
  cfg.sectionList.foldlM parseProgramStep (c, [])

/-! ### The last pass and `parse` -/

/-- One iteration of the last pass of `parse`. -/
def parseOtherSection (c : Config) (sec : Section) : Config :=
  if !GoStd.hasPrefix sec.name "group:" && !GoStd.hasPrefix sec.name "program:" then
    c.updateEntry sec.name c.getConfigFileDir (·.parse sec)
  else c

@[simp] theorem configFile_foldl_parseOtherSection (sections : List Section) (c : Config) :
    (sections.foldl parseOtherSection c).configFile = c.configFile := by
  induction sections generalizing c with
  | nil => rfl
  | cons sec rest ih =>
      rw [List.foldl_cons, ih]
      unfold parseOtherSection
      split <;> rfl

@[simp] theorem programGroup_foldl_parseOtherSection (sections : List Section) (c : Config) :
    (sections.foldl parseOtherSection c).programGroup = c.programGroup := by
  induction sections generalizing c with
  | nil => rfl
  | cons sec rest ih =>
      rw [List.foldl_cons, ih]
      unfold parseOtherSection
      split <;> rfl

/-- `Config.parse`. -/
def parse (c : Config) (cfg : IniFile) : Except Failure Config := do
  let parsed ← (c.parseGroup cfg).parseProgram cfg
  pure (parsed.2.foldl parseOtherSection parsed.1)

/-- The first instance writes its evaluated command back into the section, so every
later instance evaluates that text instead of the template. -/
theorem parse_reuses_first_command :
    ((newConfig "/etc/supervisord.conf").parse (IniFile.ofList [("program:web",
        [("command", "run %(process_num)d"), ("numprocs", "3"),
          ("process_name", "%(program_name)s_%(process_num)d")])])).map (fun c =>
        ["web_1", "web_2", "web_3"].map fun name =>
          (c.entries.lookup name).map fun entry =>
            (entry.name, entry.keyValues.lookup "process_num", entry.keyValues.lookup "command")) =
      .ok [some ("program:web_1", some "1", some "run 1"), some ("program:web_2", some "2", some "run 1"),
        some ("program:web_3", some "3", some "run 1")] :=
  rfl

/-! ### What a parse writes -/

theorem except_bind_eq_ok {ε α β : Type} {x : Except ε α} {f : α → Except ε β} {b : β} :
    x >>= f = .ok b ↔ ∃ a, x = .ok a ∧ f a = .ok b := by
  cases x <;> simp [bind, Except.bind]

/-- A property kept by every step of a fallible loop holds of its result. -/
theorem foldlM_invariant {ε σ α : Type} (P : σ → Prop) {f : σ → α → Except ε σ} {xs : List α}
    (step : ∀ s x s', x ∈ xs → P s → f s x = .ok s' → P s') {init result : σ}
    (start : P init) (run : xs.foldlM f init = .ok result) : P result := by
  induction xs generalizing init with
  | nil =>
      cases run
      exact start
  | cons x xs ih =>
      obtain ⟨s, first, rest⟩ := except_bind_eq_ok.mp run
      exact ih (fun s y s' mem => step s y s' (List.mem_cons_of_mem x mem))
        (step init x s (List.mem_cons_self x xs) start first) rest

theorem writes_foldl {α : Type} {written : String → Prop} (f : Config → α → Config) (xs : List α)
    (step : ∀ c x, x ∈ xs → Writes written c (f c x)) (c : Config) :
    Writes written c (xs.foldl f c) := by
  induction xs generalizing c with
  | nil => exact Writes.refl c
  | cons x xs ih =>
      exact (step c x (List.mem_cons_self x xs)).trans
        (ih (fun c y mem => step c y (List.mem_cons_of_mem x mem)) _)

/-- The name the instances of a program section are evaluated from: its
`process_name`, or else the program name. -/
def originalProcName (sec : Section) : String :=
  (sec.getKey "process_name").getD (programNameOf sec)

/-- Reading `numprocs` first leaves `process_name` as it was. -/
theorem originalProcName_eq (sec : Section) :
    ((sec.key "numprocs").2.getKey "process_name").getD (programNameOf sec) = originalProcName sec := by
  rw [Section.getKey_key_of_ne sec (by decide), originalProcName]

/-- The keys a parse of `cfg` can write: the name of a section, or an evaluation of
the instance name of a program or event listener section. -/
def Written (cfg : IniFile) (key : String) : Prop :=
  ∃ sec ∈ cfg.sectionList, sec.name = key ∨ ((isProgramOrEventListener sec).1 = true ∧
    ∃ env : StringExpression, env.eval (originalProcName sec) = .ok key)

theorem writes_parseGroupSection (c : Config) (sec : Section) {written : String → Prop}
    (hit : written sec.name) : Writes written c (parseGroupSection c sec) := by
  unfold parseGroupSection
  split
  · exact Writes.of_entries_set rfl hit
  · exact Writes.refl c

/-- One instance either only asks `GetGroup` for the program's group, or also writes one
entry, under the instance name evaluated with the group the first `GetGroup` returns, named
with the section prefix before that name and in the group a second `GetGroup` returns. -/
theorem parseInstance_cases (kind programName orig : String) (i : Nat) (state : Config × Section) :
    let first := state.1.programGroup.getGroup programName programName
    let second := first.2.getGroup programName programName
    (parseInstance kind programName orig i state).1 = { state.1 with programGroup := first.2 } ∨
      ∃ (procName : String) (entry : ConfigEntry),
        (instanceEnv programName i first.1 state.1.getConfigFileDir).eval orig = .ok procName ∧
        entry.name = kind ++ procName ∧ entry.group = second.1 ∧
        (parseInstance kind programName orig i state).1 =
          { state.1 with programGroup := second.2, entries := state.1.entries.set procName entry } := by
  unfold parseInstance
  dsimp only
  split
  · exact .inl rfl
  · split
    · exact .inl rfl
    · next procName evaluated => exact .inr ⟨procName, _, evaluated, rfl, rfl, rfl⟩

@[simp] theorem name_parseInstance (kind programName orig : String) (i : Nat)
    (state : Config × Section) :
    (parseInstance kind programName orig i state).2.name = state.2.name := by
  unfold parseInstance
  dsimp only
  split <;> (try split) <;> simp

@[simp] theorem name_instanceLoop (kind programName orig : String) :
    ∀ (remaining i : Nat) (state : Config × Section),
      (instanceLoop kind programName orig remaining i state).2.name = state.2.name
  | 0, _, _ => rfl
  | remaining + 1, i, state => by
      rw [instanceLoop, name_instanceLoop, name_parseInstance]

theorem writes_parseInstance (kind programName orig : String) (i : Nat) (state : Config × Section)
    {written : String → Prop}
    (hit : ∀ (env : StringExpression) key, env.eval orig = .ok key → written key) :
    Writes written state.1 (parseInstance kind programName orig i state).1 := by
  rcases parseInstance_cases kind programName orig i state with
    same | ⟨procName, entry, evaluated, -, -, wrote⟩
  · exact Writes.of_entries_eq (by rw [same])
  · exact Writes.of_entries_set (by rw [wrote]) (hit _ procName evaluated)

theorem writes_instanceLoop (kind programName orig : String) {written : String → Prop}
    (hit : ∀ (env : StringExpression) key, env.eval orig = .ok key → written key) :
    ∀ (remaining i : Nat) (state : Config × Section),
      Writes written state.1 (instanceLoop kind programName orig remaining i state).1
  | 0, _, _ => Writes.refl _
  | remaining + 1, i, state => (writes_parseInstance kind programName orig i state hit).trans
      (writes_instanceLoop kind programName orig hit remaining (i + 1) _)

/-- A program section writes only evaluations of its instance name, and keeps its name. -/
theorem writes_parseProgramSection {c : Config} {sec : Section} {parsed : Config × Section}
    {written : String → Prop}
    (hit : (isProgramOrEventListener sec).1 = true →
      ∀ (env : StringExpression) key, env.eval (originalProcName sec) = .ok key → written key)
    (run : parseProgramSection c sec = .ok parsed) :
    Writes written c parsed.1 ∧ parsed.2.name = sec.name := by
  unfold parseProgramSection at run
  split at run
  · next programOrListener =>
      dsimp only at run
      split at run
      · cases run
      · cases run
        exact ⟨writes_instanceLoop _ _ _ (originalProcName_eq sec ▸ hit programOrListener) _ 1
          (c, (sec.key "numprocs").2), by simp⟩
  · cases run
    exact ⟨Writes.refl c, rfl⟩

/-- `parseProgram` writes only what its sections name, and returns sections of the
file's section names. -/
theorem writes_parseProgram {c : Config} {cfg : IniFile} {parsed : Config × List Section}
    (run : c.parseProgram cfg = .ok parsed) :
    Writes (Written cfg) c parsed.1 ∧ ∀ sec ∈ parsed.2, ∃ orig ∈ cfg.sectionList, sec.name = orig.name := by
  refine foldlM_invariant (fun state : Config × List Section => Writes (Written cfg) c state.1 ∧
    ∀ sec ∈ state.2, ∃ orig ∈ cfg.sectionList, sec.name = orig.name) ?_ ⟨Writes.refl c, by simp⟩ run
  rintro ⟨c', secs⟩ sec next mem ⟨writes, names⟩ step
  obtain ⟨r, sectionRun, done⟩ := except_bind_eq_ok.mp step
  cases done
  have section' : Writes (Written cfg) c' r.1 ∧ r.2.name = sec.name :=
    writes_parseProgramSection (fun pe env key evaluated => ⟨sec, mem, .inr ⟨pe, env, evaluated⟩⟩)
      sectionRun
  refine ⟨writes.trans section'.1, ?_⟩
  simp only [List.mem_append, List.mem_singleton]
  rintro s (old | rfl)
  · exact names s old
  · exact ⟨sec, mem, section'.2⟩

/-- `parse` only writes keys the file names, and never removes an entry. -/
theorem writes_parse {c c' : Config} {cfg : IniFile} (run : c.parse cfg = .ok c') :
    Writes (Written cfg) c c' := by
  obtain ⟨parsed, programRun, done⟩ := except_bind_eq_ok.mp run
  cases done
  have groups : Writes (Written cfg) c (c.parseGroup cfg) :=
    writes_foldl _ _ (fun c sec mem => writes_parseGroupSection c sec ⟨sec, mem, .inl rfl⟩) c
  have programs := writes_parseProgram programRun
  refine groups.trans (programs.1.trans (writes_foldl _ _ (fun c sec mem => ?_) _))
  unfold parseOtherSection
  split
  · obtain ⟨orig, origMem, named⟩ := programs.2 sec mem
    exact writes_updateEntry _ _ _ _ ⟨orig, origMem, .inl named.symm⟩
  · exact Writes.refl c

/-! ### The run-time fault of a parse -/

/-- A fallible loop whose step fails exactly on the elements satisfying `P`, whatever the
state, and then with `e`, fails exactly when some element satisfies `P`. -/
theorem foldlM_eq_error_iff {ε σ α : Type} {f : σ → α → Except ε σ} (P : α → Prop) (e : ε)
    (step : ∀ s x err, f s x = .error err ↔ P x ∧ err = e) (xs : List α) (init : σ) (err : ε) :
    xs.foldlM f init = .error err ↔ (∃ x ∈ xs, P x) ∧ err = e := by
  induction xs generalizing init with
  | nil => simp [pure, Except.pure]
  | cons x xs ih =>
      rw [List.foldlM_cons]
      cases first : f init x with
      | error err' =>
          obtain ⟨hit, rfl⟩ := (step init x err').mp first
          simp only [bind, Except.bind, Except.error.injEq]
          exact ⟨fun same => ⟨⟨x, List.mem_cons_self x xs, hit⟩, same.symm⟩,
            fun found => found.2.symm⟩
      | ok s =>
          have miss : ¬ P x := fun hit => by
            rw [(step init x e).mpr ⟨hit, rfl⟩] at first
            cases first
          simp only [bind, Except.bind, ih, List.mem_cons, exists_eq_or_imp, miss, false_or]

/-- The section `parseProgram` faults on, whatever the store: a program or event listener
with `numprocs > 1` and no `process_name` for the warning to read. -/
def Dereferences (sec : Section) : Prop :=
  (isProgramOrEventListener sec).1 = true ∧ 1 < numProcsOf (sec.key "numprocs").1 ∧
    sec.getKey "process_name" = none

theorem parseProgramSection_eq_error (c : Config) (sec : Section) (f : Failure) :
    parseProgramSection c sec = .error f ↔
      Dereferences sec ∧ f = .panic "invalid memory address or nil pointer dereference" := by
  unfold parseProgramSection Dereferences
  split
  · next programOrListener =>
      dsimp only
      rw [Section.getKey_key_of_ne sec (by decide)]
      split
      · next faults => simp [programOrListener, faults, eq_comm]
      · next fine => simp [programOrListener, fine]
  · next notProgram => simp [notProgram]

/-- A parse faults exactly when a section has `numprocs > 1` and no `process_name`: the
warning for it reads the value of the absent key through a nil pointer. -/
theorem parse_eq_error_iff (c : Config) (cfg : IniFile) (f : Failure) :
    c.parse cfg = .error f ↔ (∃ sec ∈ cfg.sectionList, Dereferences sec) ∧
      f = .panic "invalid memory address or nil pointer dereference" := by
  have program := @foldlM_eq_error_iff _ _ _ parseProgramStep Dereferences
    (Failure.panic "invalid memory address or nil pointer dereference")
    (fun state sec err => by
      rw [← parseProgramSection_eq_error state.1 sec err]
      unfold parseProgramStep
      cases parseProgramSection state.1 sec <;> simp [bind, Except.bind, pure, Except.pure])
    cfg.sectionList (c.parseGroup cfg, []) f
  rw [← program, parse, parseProgram]
  cases (cfg.sectionList.foldlM parseProgramStep (c.parseGroup cfg, [])) <;>
    simp [bind, Except.bind, pure, Except.pure]

/-- `numprocs = 2` with no `process_name`: the warning's argument dereferences the absent
key. -/
theorem parse_dereferences_absent_process_name :
    (newConfig "/etc/supervisord.conf").parse
        (IniFile.ofList [("program:web", [("command", "/bin/web"), ("numprocs", "2")])]) =
      .error (.panic "invalid memory address or nil pointer dereference") :=
  rfl

/-! ### The store a panicking parse leaves -/

/-- `parseProgram` up to the first section that panics: the store it had written when the
panic unwinds `parse`, or the store it ends with. -/
def parseProgramUntilPanic : List Section → Config × List Section → Config
  | [], state => state.1
  | sec :: rest, state =>
      match parseProgramStep state sec with
      | .ok next => parseProgramUntilPanic rest next
      | .error _ => state.1

/-- The store `parseProgramUntilPanic` leaves is one `parseProgram` reaches over a prefix of
the sections. -/
theorem exists_prefix_parseProgramUntilPanic :
    ∀ (sections : List Section) (state : Config × List Section),
      ∃ pre result, pre <+: sections ∧ pre.foldlM parseProgramStep state = .ok result ∧
        parseProgramUntilPanic sections state = result.1
  | [], state => ⟨[], state, List.prefix_refl _, rfl, rfl⟩
  | sec :: rest, state => by
      unfold parseProgramUntilPanic
      cases stepped : parseProgramStep state sec with
      | error => exact ⟨[], state, List.nil_prefix, rfl, rfl⟩
      | ok next =>
          obtain ⟨pre, result, isPrefix, run, same⟩ := exists_prefix_parseProgramUntilPanic rest next
          refine ⟨sec :: pre, result, List.cons_prefix_cons.mpr ⟨rfl, isPrefix⟩, ?_, same⟩
          rw [List.foldlM_cons, stepped]
          exact run

end Config

end Supervisord

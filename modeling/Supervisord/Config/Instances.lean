import Mathlib.Tactic.IntervalCases
import Supervisord.Config.Groups

/-!
# The instances of a program section

For a `program:` or `eventlistener:` section, `parseProgram` runs the loop
`for i := 1; i <= numProcs; i++`. Instance `i` evaluates the section's `command`
and the instance name with `process_num = i`, writes the evaluated command,
`process_name`, `numprocs_start` and `process_num` back into the section, and
stores a copy of the section under the evaluated name, with the section prefix
before the name and the program's group.

The command is evaluated from the section, into which the previous instance
wrote its own evaluation. So once an instance has evaluated the command, every
later instance reads that text instead of the template. `Expanding` is the
state of the loop between two instances. `expanding_parseInstance` shows that an
instance keeps it, and by induction the whole loop does, so every instance whose
name evaluates leaves its entry.

On a load into a fresh store, `load_expands` follows the entries through the
rest of `parse`, with the invariants `Parsing` and `Parsed` of the load. The
sections before the program section leave the group index as `groupOf`
describes it. The sections after it write only the names of their own instances
(`InstanceName`) and the last pass only section names, so an instance's entry
survives when no other section can write its name.
-/

namespace Supervisord

namespace Config

/-- The keys instance `i` of a program section writes into the entry it leaves under
`procName`, and the entry's name and group. -/
structure InstanceEntry (kind group cmd : String) (i : Nat) (procName : String)
    (entry : ConfigEntry) : Prop where
  name : entry.name = kind ++ procName
  group : entry.group = group
  command : entry.keyValues.lookup "command" = some cmd
  processName : entry.keyValues.lookup "process_name" = some procName
  numprocsStart : entry.keyValues.lookup "numprocs_start" = some (toString (i - 1))
  processNum : entry.keyValues.lookup "process_num" = some (toString i)

/-- One instance whose command and name evaluate writes the entry of its name. -/
theorem parseInstance_of_ok {kind programName orig group cmd procName : String} {i : Nat}
    {pg : ProcessGroup} {state : Config × Section}
    (grouped : state.1.programGroup.getGroup programName programName = (group, pg))
    (command : (instanceEnv programName i group state.1.getConfigFileDir).eval
      (state.2.key "command").1 = .ok cmd)
    (evaluated :
      (instanceEnv programName i group state.1.getConfigFileDir).eval orig = .ok procName) :
    ∃ entry, parseInstance kind programName orig i state =
        ({ state.1 with programGroup := (pg.getGroup programName programName).2
                        entries := state.1.entries.set procName entry },
          ((((state.2.key "command").2.newKey "command" cmd).newKey "process_name" procName).newKey
            "numprocs_start" (toString (i - 1))).newKey "process_num" (toString i)) ∧
      InstanceEntry kind (pg.getGroup programName programName).1 cmd i procName entry := by
  simp only [getConfigFileDir] at command evaluated
  apply Exists.intro
  constructor
  · simp only [parseInstance, getConfigFileDir, grouped, command, evaluated]
    rfl
  · refine ⟨rfl, rfl, ?_, ?_, ?_, ?_⟩ <;> simp [ConfigEntry.lookup_parse, Section.newKey]

/-- Where the instance loop stands before instance `j`, having started at `first`: the
program sits in the group index as the first `GetGroup` left it, the section's command
evaluates to `cmd` for instance `j`, and every earlier instance has its entry. -/
structure Expanding (kind programName group here cmd : String) (pg : ProcessGroup)
    (name : Nat → String) (first j : Nat) (state : Config × Section) : Prop where
  grouped : state.1.programGroup.getGroup programName programName = (group, pg)
  dir : state.1.getConfigFileDir = here
  command : (instanceEnv programName j group here).eval (state.2.key "command").1 = .ok cmd
  entries : ∀ i, first ≤ i → i < j →
    ∃ entry, state.1.entries.lookup (name i) = some entry ∧
      InstanceEntry kind group cmd i (name i) entry

section Expansion

variable {kind programName orig group here cmd : String} {pg : ProcessGroup} {name : Nat → String}
  {first : Nat}

/-- An instance whose name evaluates, to a name no earlier instance took, adds its entry; its
command, written back without a placeholder, evaluates to itself for the next instance. -/
theorem expanding_parseInstance (settled : pg.getGroup programName programName = (group, pg))
    (plain : '%' ∉ cmd.toList) {j : Nat} {state : Config × Section}
    (evaluated : (instanceEnv programName j group here).eval orig = .ok (name j))
    (fresh : ∀ i, first ≤ i → i < j → name i ≠ name j)
    (expanding : Expanding kind programName group here cmd pg name first j state) :
    Expanding kind programName group here cmd pg name first (j + 1)
      (parseInstance kind programName orig j state) := by
  obtain ⟨grouped, rfl, command, entries⟩ := expanding
  obtain ⟨entry, ran, written⟩ := parseInstance_of_ok grouped command evaluated
  rw [settled] at written
  rw [ran]
  refine ⟨by rw [settled]; exact settled, rfl, ?_, fun i low high => ?_⟩
  · simpa [Section.fst_key, Section.getKey, Section.newKey] using
      StringExpression.eval_of_no_percent _ _ plain
  · rcases Nat.lt_succ_iff_lt_or_eq.mp high with earlier | rfl
    · obtain ⟨old, found, oldWritten⟩ := entries i low earlier
      exact ⟨old, by rw [GoMap.lookup_set_of_ne _ _ (fresh i low earlier), found], oldWritten⟩
    · exact ⟨entry, by simp, written⟩

theorem expanding_instanceLoop (settled : pg.getGroup programName programName = (group, pg))
    (plain : '%' ∉ cmd.toList) :
    ∀ (remaining j : Nat) (state : Config × Section),
      (∀ i, j ≤ i → i < j + remaining →
        (instanceEnv programName i group here).eval orig = .ok (name i)) →
      (∀ i i', first ≤ i → i < i' → i' < j + remaining → name i ≠ name i') →
      Expanding kind programName group here cmd pg name first j state →
      Expanding kind programName group here cmd pg name first (j + remaining)
        (instanceLoop kind programName orig remaining j state)
  | 0, _, _, _, _, expanding => expanding
  | remaining + 1, j, state, evaluated, distinct, expanding => by
      rw [instanceLoop, show j + (remaining + 1) = j + 1 + remaining by omega]
      exact expanding_instanceLoop settled plain remaining (j + 1) _
        (fun i low high => evaluated i (by omega) (by omega))
        (fun i i' low lt high => distinct i i' low lt (by omega))
        (expanding_parseInstance settled plain (evaluated j le_rfl (by omega))
          (fun i low high => distinct i j low high (by omega)) expanding)

end Expansion

@[simp] theorem configFile_parseInstance (kind programName orig : String) (i : Nat)
    (state : Config × Section) :
    (parseInstance kind programName orig i state).1.configFile = state.1.configFile := by
  unfold parseInstance
  dsimp only
  split <;> (try split) <;> rfl

@[simp] theorem configFile_instanceLoop (kind programName orig : String) :
    ∀ (remaining i : Nat) (state : Config × Section),
      (instanceLoop kind programName orig remaining i state).1.configFile = state.1.configFile
  | 0, _, _ => rfl
  | remaining + 1, i, state => by
      rw [instanceLoop, configFile_instanceLoop, configFile_parseInstance]

/-- Whatever it does, a program section runs its instance loop from instance 1 on the section
as reading `numprocs` left it. -/
theorem eq_instanceLoop_of_parseProgramSection {c : Config} {sec : Section}
    {parsed : Config × Section} (programOrListener : (isProgramOrEventListener sec).1 = true)
    (run : parseProgramSection c sec = .ok parsed) :
    parsed = instanceLoop (isProgramOrEventListener sec).2 (programNameOf sec)
      (originalProcName sec) (numProcsOf (sec.key "numprocs").1).toNat 1
      (c, (sec.key "numprocs").2) := by
  unfold parseProgramSection at run
  rw [if_pos programOrListener] at run
  dsimp only at run
  split at run
  · cases run
  · cases run
    rw [originalProcName_eq]

/-- A section that is no program or event listener passes `parseProgram` unchanged. -/
theorem parseProgramSection_of_not {c : Config} {sec : Section}
    (other : ¬ (isProgramOrEventListener sec).1 = true) :
    parseProgramSection c sec = .ok (c, sec) := by
  unfold parseProgramSection
  rw [if_neg other]

theorem configFile_parseProgramSection {c : Config} {sec : Section} {parsed : Config × Section}
    (run : parseProgramSection c sec = .ok parsed) : parsed.1.configFile = c.configFile := by
  by_cases programOrListener : (isProgramOrEventListener sec).1 = true
  · rw [eq_instanceLoop_of_parseProgramSection programOrListener run, configFile_instanceLoop]
  · rw [parseProgramSection_of_not programOrListener] at run
    cases run
    rfl

/-- The instance loop of a section whose instance names evaluate, no two alike, and whose first
instance evaluates the command to text without a placeholder: every instance leaves its entry. -/
theorem entries_instanceLoop {c : Config} {sec : Section} {group cmd : String} {n : Nat}
    {name : Nat → String}
    (grouped : (c.programGroup.getGroup (programNameOf sec) (programNameOf sec)).1 = group)
    (command : (instanceEnv (programNameOf sec) 1 group c.getConfigFileDir).eval
      ((sec.getKey "command").getD "") = .ok cmd)
    (plain : '%' ∉ cmd.toList)
    (evaluated : ∀ i, 1 ≤ i → i ≤ n →
      (instanceEnv (programNameOf sec) i group c.getConfigFileDir).eval (originalProcName sec) =
        .ok (name i))
    (distinct : ∀ i j, 1 ≤ i → i < j → j ≤ n → name i ≠ name j) :
    ∀ i, 1 ≤ i → i ≤ n → ∃ entry,
      (instanceLoop (isProgramOrEventListener sec).2 (programNameOf sec) (originalProcName sec) n 1
        (c, (sec.key "numprocs").2)).1.entries.lookup (name i) = some entry ∧
        InstanceEntry (isProgramOrEventListener sec).2 group cmd i (name i) entry := by
  have settled : (c.programGroup.getGroup (programNameOf sec) (programNameOf sec)).2.getGroup
      (programNameOf sec) (programNameOf sec) =
        (group, (c.programGroup.getGroup (programNameOf sec) (programNameOf sec)).2) := by
    rw [ProcessGroup.getGroup_getGroup]
    exact Prod.ext grouped rfl
  have start : Expanding (isProgramOrEventListener sec).2 (programNameOf sec) group
      c.getConfigFileDir cmd (c.programGroup.getGroup (programNameOf sec) (programNameOf sec)).2
      name 1 1 (c, (sec.key "numprocs").2) :=
    ⟨Prod.ext grouped rfl, rfl, by rwa [Section.fst_key, Section.getKey_key_of_ne _ (by decide)],
      fun i low high => absurd high (by omega)⟩
  have ran := expanding_instanceLoop settled plain n 1 _
    (fun i low high => evaluated i low (by omega))
    (fun i i' low lt high => distinct i i' low lt (by omega)) start
  exact fun i low high => ran.entries i low (by omega)

/-- A program or event listener section expands into `numprocs` instances: when every
instance name evaluates, no two alike, and the first instance's command evaluates to text
without a placeholder, each instance `i` leaves an entry under its name, in the program's
group, holding that first command and its own `process_num`. -/
theorem parseProgramSection_expands {c : Config} {sec : Section} {group cmd : String} {n : Nat}
    {name : Nat → String} (programOrListener : (isProgramOrEventListener sec).1 = true)
    (count : (numProcsOf (sec.key "numprocs").1).toNat = n)
    (named : (sec.getKey "process_name").isSome ∨ n ≤ 1)
    (grouped : (c.programGroup.getGroup (programNameOf sec) (programNameOf sec)).1 = group)
    (command : (instanceEnv (programNameOf sec) 1 group c.getConfigFileDir).eval
      ((sec.getKey "command").getD "") = .ok cmd)
    (plain : '%' ∉ cmd.toList)
    (evaluated : ∀ i, 1 ≤ i → i ≤ n →
      (instanceEnv (programNameOf sec) i group c.getConfigFileDir).eval (originalProcName sec) = .ok (name i))
    (distinct : ∀ i j, 1 ≤ i → i < j → j ≤ n → name i ≠ name j) :
    ∃ parsed, parseProgramSection c sec = .ok parsed ∧
      ∀ i, 1 ≤ i → i ≤ n → ∃ entry, parsed.1.entries.lookup (name i) = some entry ∧
        InstanceEntry (isProgramOrEventListener sec).2 group cmd i (name i) entry := by
  subst count
  refine ⟨_, ?_, entries_instanceLoop grouped command plain evaluated distinct⟩
  unfold parseProgramSection
  dsimp only
  rw [if_pos programOrListener, originalProcName_eq, Section.getKey_key_of_ne _ (by decide), if_neg]
  rintro ⟨more, absent⟩
  rw [absent] at named
  simp at named
  omega

/-- Three instances of `program:web`, named `web_1` to `web_3`, all running `run 1`. -/
theorem parseProgramSection_expands_web :
    let c := newConfig "/etc/supervisord.conf"
    let sec : Section := ⟨"program:web", GoMap.ofList [("command", "run %(process_num)d"),
      ("numprocs", "3"), ("process_name", "%(program_name)s_%(process_num)d")]⟩
    let name := fun i : Nat => "web_" ++ toString i
    ((isProgramOrEventListener sec).1 = true ∧ (numProcsOf (sec.key "numprocs").1).toNat = 3 ∧
      ((sec.getKey "process_name").isSome ∨ 3 ≤ 1) ∧
      (c.programGroup.getGroup (programNameOf sec) (programNameOf sec)).1 = "web" ∧
      (instanceEnv (programNameOf sec) 1 "web" c.getConfigFileDir).eval
        ((sec.getKey "command").getD "") = .ok "run 1" ∧
      '%' ∉ "run 1".toList ∧
      (∀ i, 1 ≤ i → i ≤ 3 → (instanceEnv (programNameOf sec) i "web" c.getConfigFileDir).eval
        (originalProcName sec) = .ok (name i)) ∧
      ∀ i j, 1 ≤ i → i < j → j ≤ 3 → name i ≠ name j) ∧
    ∃ parsed, parseProgramSection c sec = .ok parsed ∧
      ∀ i, 1 ≤ i → i ≤ 3 → ∃ entry, parsed.1.entries.lookup (name i) = some entry ∧
        InstanceEntry (isProgramOrEventListener sec).2 "web" "run 1" i (name i) entry := by
  intro c sec name
  have evaluated : ∀ i, 1 ≤ i → i ≤ 3 →
      (instanceEnv (programNameOf sec) i "web" c.getConfigFileDir).eval (originalProcName sec) =
        .ok (name i) := by
    intro i low high
    interval_cases i <;> rfl
  have distinct : ∀ i j, 1 ≤ i → i < j → j ≤ 3 → name i ≠ name j := by
    intro i j low lt high
    have : i ≤ 2 := by omega
    interval_cases i <;> interval_cases j <;> decide
  exact ⟨⟨rfl, rfl, .inl rfl, rfl, rfl, by decide, evaluated, distinct⟩,
    parseProgramSection_expands rfl rfl (.inl rfl) rfl rfl (by decide) evaluated distinct⟩

/-! ### A load into a fresh store -/

/-- The last pass of `parse` writes only under the names of the sections it is given. -/
theorem writes_foldl_parseOtherSection (sections : List Section) (c : Config) :
    Writes (fun key => ∃ sec ∈ sections, sec.name = key) c
      (sections.foldl parseOtherSection c) := by
  refine writes_foldl _ _ (fun c sec mem => ?_) c
  unfold parseOtherSection
  split
  · exact writes_updateEntry _ _ _ _ ⟨sec, mem, rfl⟩
  · exact Writes.refl c

theorem configFile_foldlM_parseProgramStep {sections : List Section}
    {state result : Config × List Section}
    (run : sections.foldlM parseProgramStep state = .ok result) :
    result.1.configFile = state.1.configFile :=
  foldlM_invariant (fun s : Config × List Section => s.1.configFile = state.1.configFile)
    (fun _ _ _ _ same stepped => by
      obtain ⟨r, sectionRun, done⟩ := except_bind_eq_ok.mp stepped
      cases done
      exact (configFile_parseProgramSection sectionRun).trans same)
    rfl run

/-- `parseProgram` returns one section per section of the file, in order, under the same name. -/
theorem names_foldlM_parseProgramStep :
    ∀ (sections : List Section) (state result : Config × List Section),
      sections.foldlM parseProgramStep state = .ok result →
      result.2.map Section.name = state.2.map Section.name ++ sections.map Section.name
  | [], state, result, run => by
      cases run
      simp
  | sec :: rest, state, result, run => by
      obtain ⟨next, step, restRun⟩ := except_bind_eq_ok.mp run
      obtain ⟨parsed, sectionRun, done⟩ := except_bind_eq_ok.mp step
      cases done
      rw [names_foldlM_parseProgramStep rest _ result restRun, List.map_append, List.map_singleton,
        (@writes_parseProgramSection _ _ _ (fun _ => True) (fun _ _ _ _ => trivial) sectionRun).2]
      simp

/-- The last pass leaves, under the name of each section that is neither a group nor a program,
an entry of that name. -/
theorem lookup_foldl_parseOtherSection {sec : Section}
    (other : GoStd.hasPrefix sec.name "group:" = false ∧
      GoStd.hasPrefix sec.name "program:" = false) :
    ∀ (sections : List Section) (c : Config), (sections.map Section.name).Nodup →
      sec ∈ sections →
      ∃ entry, (sections.foldl parseOtherSection c).entries.lookup sec.name = some entry ∧
        entry.name = sec.name
  | [], _, _, mem => absurd mem (List.not_mem_nil _)
  | first :: rest, c, nodup, mem => by
      rw [List.map_cons, List.nodup_cons] at nodup
      rw [List.foldl_cons]
      rcases List.mem_cons.mp mem with rfl | later
      · rw [(writes_foldl_parseOtherSection rest _).frame _ fun ⟨s, inRest, named⟩ =>
          nodup.1 (named ▸ List.mem_map_of_mem _ inRest)]
        unfold parseOtherSection
        rw [if_pos (by simp [other.1, other.2])]
        exact ⟨(c.createEntry sec.name c.getConfigFileDir).parse sec, by simp [updateEntry],
          rfl⟩
      · exact lookup_foldl_parseOtherSection other rest _ nodup.2 later

/-- Every load leaves, under the name of each section of the file that is neither a group nor
a program, an entry of that name. -/
theorem lookup_load_other_section {fs : FileSystem} {c c' : Config} {cfg : IniFile} {sec : Section}
    (read : c.readFile fs = .ok cfg) (loaded : c.load fs = .ok c') (mem : sec ∈ cfg.sectionList)
    (other : GoStd.hasPrefix sec.name "group:" = false ∧
      GoStd.hasPrefix sec.name "program:" = false) :
    ∃ entry, c'.entries.lookup sec.name = some entry ∧ entry.name = sec.name := by
  rw [load, read] at loaded
  obtain ⟨parsed, programRun, done⟩ :=
    except_bind_eq_ok.mp (show c.parse cfg = .ok c' from loaded)
  cases done
  have names := names_foldlM_parseProgramStep _ _ _ programRun
  simp only [List.map_nil, List.nil_append] at names
  obtain ⟨left, inParsed, named⟩ : ∃ left ∈ parsed.2, left.name = sec.name := by
    have : sec.name ∈ parsed.2.map Section.name := names ▸ List.mem_map_of_mem _ mem
    simpa using this
  rw [← named] at other ⊢
  exact lookup_foldl_parseOtherSection other parsed.2 _
    (names ▸ IniFile.nodup_sectionList_names cfg) inParsed

end Config

end Supervisord

import Supervisord.Config.Load

/-!
# Group membership after a load

`parseGroup` puts every name of a `group:` section's `programs` list into the
group index, a later section overriding an earlier one. The list is split at
`,` by `GetStringArray`, which removes no whitespace: `a, b` lists `a` and ` b`.
`parseProgram` then asks `GetGroup` for the group of each program at every
instance: a listed program gets its group, and any other program is put in a
group of its own name, a mapping added only when its section runs an instance.

`groupOf` reads the group a program ends up in off the file alone, and
`load_assigns_groupOf` shows that a load into a fresh store gives that group to
every instance entry, and maps in the index exactly the listed programs and the
programs that run an instance, each to that group (`GroupsAssigned`). An
instance's entry is told apart by its name, the section prefix before its key;
every other entry is named by its key, as the section it was parsed from. The
proof carries the invariant `Parsing` through the three passes of `parse`:
`EntryGroups` for the entries, `IndexGroups` and `IndexMapsOnly` for the index.
One instance keeps it (`instanceStep_parseInstance`), and so do the instance
loop, a section and the whole `parseProgram` (`Parsed`).
-/

namespace Supervisord

namespace Config

/-! ### The group of a program, read off the file -/

/-- The names a section's `programs` key lists, split as `GetStringArray` splits them. -/
def listedPrograms (sec : Section) : List String :=
  match sec.getKey "programs" with
  | some programs => GoStd.split programs ','
  | none => []

/-- One section's effect on the group of `program`: a `group:` section listing it puts
it in that group. -/
def listingStep (program : String) (group : Option String) (sec : Section) : Option String :=
  if GoStd.hasPrefix sec.name "group:" ∧ program ∈ listedPrograms sec then
    some (GoStd.dropChars sec.name "group:".length)
  else group

/-- The group of the last `group:` section listing `program`, if any. -/
def listingGroup (sections : List Section) (program : String) : Option String :=
  sections.foldl (listingStep program) none

/-- The group a load of `cfg` puts `program` in: that of the last section listing it,
or else the program's own name. -/
def groupOf (cfg : IniFile) (program : String) : String :=
  (listingGroup cfg.sectionList program).getD program

/-- `key` is the name that instance `i` of the program or event listener section `sec`
evaluates, `1 ≤ i ≤ numprocs`, with the bindings `parseProgram` gives the instance once the
program is in its `groupOf` group, the file being in directory `here`. -/
def InstanceName (cfg : IniFile) (here : String) (sec : Section) (key : String) : Prop :=
  (isProgramOrEventListener sec).1 = true ∧
    ∃ i, 1 ≤ i ∧ i ≤ (numProcsOf (sec.key "numprocs").1).toNat ∧
      (instanceEnv (programNameOf sec) i (groupOf cfg (programNameOf sec)) here).eval
        (originalProcName sec) = .ok key

/-- An entry a load of `cfg` from directory `here` may leave under `key`: the entry of the
section named `key`, under that name, or the entry of an instance whose name is `key`, named
with its section's prefix before `key` and in its program's `groupOf` group. -/
def EntryGroup (cfg : IniFile) (here key : String) (entry : ConfigEntry) : Prop :=
  ∃ sec ∈ cfg.sectionList, (sec.name = key ∧ entry.name = key) ∨
    (InstanceName cfg here sec key ∧ entry.name = (isProgramOrEventListener sec).2 ++ key ∧
      entry.group = groupOf cfg (programNameOf sec))

/-- A program or event listener section with program name `program` runs an instance. -/
def RunsInstance (cfg : IniFile) (program : String) : Prop :=
  ∃ sec ∈ cfg.sectionList, (isProgramOrEventListener sec).1 = true ∧
    programNameOf sec = program ∧ 0 < numProcsOf (sec.key "numprocs").1

/-- What a load of `cfg` into a fresh store leaves in the store `c`. -/
structure GroupsAssigned (cfg : IniFile) (c : Config) : Prop where
  /-- Every entry is a section's own or an instance's, and the entry of an instance has the
  group of the instance's program. -/
  entry_group : ∀ key entry, c.entries.lookup key = some entry →
    EntryGroup cfg c.getConfigFileDir key entry
  /-- The index maps a program to its group, or not at all. -/
  index_group : ∀ program, c.programGroup.processGroup.lookup program = none ∨
    c.programGroup.processGroup.lookup program = some (groupOf cfg program)
  /-- The index maps exactly the listed programs and the programs that run an instance. -/
  mapped_iff : ∀ program, (c.programGroup.processGroup.lookup program).isSome ↔
    (listingGroup cfg.sectionList program).isSome ∨ RunsInstance cfg program

/-! ### `parseGroup` on a fresh store -/

theorem getPrograms_parse_newConfigEntry (configDir : String) (sec : Section) :
    ((newConfigEntry configDir).parse sec).getPrograms =
      if GoStd.hasPrefix sec.name "group:" then listedPrograms sec else [] := by
  simp only [ConfigEntry.getPrograms, ConfigEntry.isGroup, ConfigEntry.isKind,
    ConfigEntry.name_parse, ConfigEntry.getStringArray, ConfigEntry.lookup_parse, listedPrograms,
    Section.getKey]
  cases sec.keys.lookup "programs" <;> rfl

/-- On a section whose name has no entry yet, `parseGroup` takes one `listingStep`. -/
theorem lookup_parseGroupSection (c : Config) (sec : Section)
    (fresh : c.entries.lookup sec.name = none) (program : String) :
    (parseGroupSection c sec).programGroup.processGroup.lookup program =
      listingStep program (c.programGroup.processGroup.lookup program) sec := by
  have created : c.createEntry sec.name c.getConfigFileDir = newConfigEntry c.getConfigFileDir := by
    simp [createEntry, fresh]
  unfold parseGroupSection listingStep
  split
  · next group =>
      simp [created, ProcessGroup.lookup_foldl_add, getPrograms_parse_newConfigEntry, group,
        ConfigEntry.getGroupName, ConfigEntry.kindName, ConfigEntry.isKind]
  · next notGroup => simp [notGroup]

theorem lookup_parseGroup_foldl (program : String) :
    ∀ (sections : List Section) (c : Config), (sections.map Section.name).Nodup →
      (∀ sec ∈ sections, c.entries.lookup sec.name = none) →
      (sections.foldl parseGroupSection c).programGroup.processGroup.lookup program =
        sections.foldl (listingStep program) (c.programGroup.processGroup.lookup program)
  | [], _, _, _ => rfl
  | sec :: rest, c, nodup, fresh => by
      rw [List.map_cons, List.nodup_cons] at nodup
      rw [List.foldl_cons, List.foldl_cons,
        ← lookup_parseGroupSection c sec (fresh sec (List.mem_cons_self _ _))]
      have writes : Writes (· = sec.name) c (parseGroupSection c sec) :=
        writes_parseGroupSection c sec rfl
      refine lookup_parseGroup_foldl program rest _ nodup.2 fun later mem => ?_
      rw [writes.frame _ fun same => nodup.1 (same ▸ List.mem_map_of_mem _ mem)]
      exact fresh later (List.mem_cons_of_mem _ mem)

theorem configFile_parseGroup (c : Config) (cfg : IniFile) :
    (c.parseGroup cfg).configFile = c.configFile := by
  unfold parseGroup
  induction cfg.sectionList generalizing c with
  | nil => rfl
  | cons sec rest ih =>
      rw [List.foldl_cons, ih]
      unfold parseGroupSection
      split <;> rfl

/-- On a fresh store `parseGroup` builds the index `listingGroup` describes. -/
theorem lookup_parseGroup_newConfig (path : String) (cfg : IniFile) (program : String) :
    ((newConfig path).parseGroup cfg).programGroup.processGroup.lookup program =
      listingGroup cfg.sectionList program :=
  lookup_parseGroup_foldl program _ _ (IniFile.nodup_sectionList_names cfg) fun _ _ => rfl

/-! ### The invariants of the passes -/

section Invariants

variable {cfg : IniFile} {here : String}

/-- Every entry of the store is one `EntryGroup` allows. -/
def EntryGroups (cfg : IniFile) (here : String) (c : Config) : Prop :=
  ∀ key entry, c.entries.lookup key = some entry → EntryGroup cfg here key entry

/-- A program the index maps is in its `groupOf` group; one it does not map is its own
group. -/
def IndexGroups (cfg : IniFile) (pg : ProcessGroup) : Prop :=
  ∀ program, (pg.processGroup.lookup program).getD program = groupOf cfg program

/-- The index maps only listed programs and programs that run an instance. -/
def IndexMapsOnly (cfg : IniFile) (pg : ProcessGroup) : Prop :=
  ∀ program, (pg.processGroup.lookup program).isSome →
    (listingGroup cfg.sectionList program).isSome ∨ RunsInstance cfg program

/-- What every pass of a load of `cfg` from directory `here` into a fresh store keeps. -/
structure Parsing (cfg : IniFile) (here : String) (c : Config) : Prop where
  dir : c.getConfigFileDir = here
  entries : EntryGroups cfg here c
  index : IndexGroups cfg c.programGroup
  only : IndexMapsOnly cfg c.programGroup

theorem IndexGroups.lookup {pg : ProcessGroup} (inv : IndexGroups cfg pg) (program : String) :
    pg.processGroup.lookup program = none ∨
      pg.processGroup.lookup program = some (groupOf cfg program) := by
  have inGroup := inv program
  cases found : pg.processGroup.lookup program with
  | none => exact .inl rfl
  | some group =>
      rw [found] at inGroup
      exact .inr (congrArg some inGroup)

/-- Every program `pg` maps, `pg'` maps too. -/
def IndexGrows (pg pg' : ProcessGroup) : Prop :=
  ∀ program, (pg.processGroup.lookup program).isSome → (pg'.processGroup.lookup program).isSome

theorem IndexGrows.trans {pg pg' pg'' : ProcessGroup} (first : IndexGrows pg pg')
    (second : IndexGrows pg' pg'') : IndexGrows pg pg'' :=
  fun program mapped => second program (first program mapped)

theorem EntryGroups.set {c c' : Config} (inv : EntryGroups cfg here c) {key : String}
    {entry : ConfigEntry} (set : c'.entries = c.entries.set key entry)
    (good : EntryGroup cfg here key entry) : EntryGroups cfg here c' := by
  intro other found found'
  rw [set, GoMap.lookup_set] at found'
  split at found'
  · next hit =>
      cases found'
      exact hit ▸ good
  · exact inv other found found'

/-- An entry parsed from a section, under the section's name, is the section's own. -/
theorem EntryGroups.set_parse {c c' : Config} (inv : EntryGroups cfg here c) {sec : Section}
    (named : ∃ orig ∈ cfg.sectionList, orig.name = sec.name) {entry : ConfigEntry}
    (set : c'.entries = c.entries.set sec.name (entry.parse sec)) : EntryGroups cfg here c' :=
  let ⟨orig, mem, same⟩ := named
  inv.set set ⟨orig, mem, .inl ⟨same, ConfigEntry.name_parse entry sec⟩⟩

theorem EntryGroups.foldl {f : Config → Section → Config} {sections : List Section}
    (step : ∀ c, ∀ sec ∈ sections, EntryGroups cfg here c → EntryGroups cfg here (f c sec))
    {c : Config} (inv : EntryGroups cfg here c) : EntryGroups cfg here (sections.foldl f c) := by
  induction sections generalizing c with
  | nil => exact inv
  | cons sec rest ih =>
      exact ih (fun c later mem => step c later (List.mem_cons_of_mem _ mem))
        (step c sec (List.mem_cons_self _ _) inv)

theorem IndexGroups.getGroup {pg : ProcessGroup} (inv : IndexGroups cfg pg) (program : String) :
    (pg.getGroup program program).1 = groupOf cfg program ∧
      IndexGroups cfg (pg.getGroup program program).2 := by
  refine ⟨by rw [ProcessGroup.fst_getGroup]; exact inv program, fun other => ?_⟩
  rw [ProcessGroup.lookup_getGroup]
  split
  · next hit =>
      subst hit
      exact inv other
  · exact inv other

theorem IndexMapsOnly.getGroup {pg : ProcessGroup} (inv : IndexMapsOnly cfg pg) {program : String}
    (runs : RunsInstance cfg program) : IndexMapsOnly cfg (pg.getGroup program program).2 := by
  intro other mapped
  rw [ProcessGroup.lookup_getGroup] at mapped
  split at mapped
  · next hit => exact .inr (hit ▸ runs)
  · exact inv other mapped

theorem indexGrows_getGroup (pg : ProcessGroup) (program : String) :
    IndexGrows pg (pg.getGroup program program).2 ∧
      ((pg.getGroup program program).2.processGroup.lookup program).isSome := by
  refine ⟨fun other mapped => ?_, by simp⟩
  rw [ProcessGroup.lookup_getGroup]
  split <;> simp_all

/-- What one instance of the program or event listener section `sec` keeps, and that it
maps the program and writes only the instance's name. -/
structure InstanceStep (cfg : IniFile) (here : String) (sec : Section) (c c' : Config) : Prop where
  parsing : Parsing cfg here c'
  grows : IndexGrows c.programGroup c'.programGroup
  mapped : (c'.programGroup.processGroup.lookup (programNameOf sec)).isSome
  writes : Writes (InstanceName cfg here sec) c c'

theorem instanceStep_parseInstance {sec : Section} (mem : sec ∈ cfg.sectionList)
    (programOrListener : (isProgramOrEventListener sec).1 = true) {i : Nat} (low : 1 ≤ i)
    (high : i ≤ (numProcsOf (sec.key "numprocs").1).toNat) (state : Config × Section)
    (inv : Parsing cfg here state.1) :
    InstanceStep cfg here sec state.1 (parseInstance (isProgramOrEventListener sec).2
      (programNameOf sec) (originalProcName sec) i state).1 := by
  have runs : RunsInstance cfg (programNameOf sec) := ⟨sec, mem, programOrListener, rfl, by omega⟩
  have first := inv.index.getGroup (programNameOf sec)
  have firstGrows := indexGrows_getGroup state.1.programGroup (programNameOf sec)
  have second := first.2.getGroup (programNameOf sec)
  have secondGrows := indexGrows_getGroup
    (state.1.programGroup.getGroup (programNameOf sec) (programNameOf sec)).2 (programNameOf sec)
  have firstOnly := inv.only.getGroup runs
  rcases parseInstance_cases (isProgramOrEventListener sec).2 (programNameOf sec)
      (originalProcName sec) i state with same | ⟨key, entry, evaluated, named, grouped, wrote⟩
  · rw [same]
    exact ⟨⟨inv.dir, inv.entries, first.2, firstOnly⟩, firstGrows.1, firstGrows.2,
      Writes.of_entries_eq rfl⟩
  · have instanceNamed : InstanceName cfg here sec key :=
      ⟨programOrListener, i, low, high, by rw [← first.1, ← inv.dir]; exact evaluated⟩
    rw [wrote]
    exact ⟨⟨inv.dir, inv.entries.set rfl ⟨sec, mem, .inr ⟨instanceNamed, named, grouped.trans second.1⟩⟩,
        second.2, firstOnly.getGroup runs⟩,
      firstGrows.1.trans secondGrows.1, secondGrows.2, Writes.of_entries_set rfl instanceNamed⟩

/-- The instance loop keeps the invariants and writes only instance names; once it has run an
instance, it has mapped the program. -/
theorem instanceLoop_parsing {sec : Section} (mem : sec ∈ cfg.sectionList)
    (programOrListener : (isProgramOrEventListener sec).1 = true) :
    ∀ (remaining i : Nat) (state : Config × Section), 1 ≤ i →
      i + remaining ≤ (numProcsOf (sec.key "numprocs").1).toNat + 1 → Parsing cfg here state.1 →
      let c' := (instanceLoop (isProgramOrEventListener sec).2 (programNameOf sec)
        (originalProcName sec) remaining i state).1
      Parsing cfg here c' ∧ IndexGrows state.1.programGroup c'.programGroup ∧
        Writes (InstanceName cfg here sec) state.1 c' ∧
        (0 < remaining → (c'.programGroup.processGroup.lookup (programNameOf sec)).isSome)
  | 0, _, _, _, _, inv => ⟨inv, fun _ => id, Writes.refl _, fun empty => absurd empty (by decide)⟩
  | remaining + 1, i, state, low, high, inv =>
      let step := instanceStep_parseInstance mem programOrListener low (by omega) state inv
      let rest := instanceLoop_parsing mem programOrListener remaining (i + 1) _ (by omega)
        (by omega) step.parsing
      ⟨rest.1, step.grows.trans rest.2.1, step.writes.trans rest.2.2.1,
        fun _ => rest.2.1 _ step.mapped⟩

/-- What `parseProgram` keeps over the sections `sections`: the invariants, the programs it
maps, that it writes only the names of their instances, and that it maps every program whose
section runs an instance. -/
structure Parsed (cfg : IniFile) (here : String) (sections : List Section) (c c' : Config) :
    Prop where
  parsing : Parsing cfg here c'
  grows : IndexGrows c.programGroup c'.programGroup
  writes : Writes (fun key => ∃ sec ∈ sections, InstanceName cfg here sec key) c c'
  mapped : ∀ sec ∈ sections, (isProgramOrEventListener sec).1 = true →
    0 < numProcsOf (sec.key "numprocs").1 →
    (c'.programGroup.processGroup.lookup (programNameOf sec)).isSome

theorem Parsed.cons {sec : Section} {rest : List Section} {c c' c'' : Config}
    (first : Parsed cfg here [sec] c c') (second : Parsed cfg here rest c' c'') :
    Parsed cfg here (sec :: rest) c c'' where
  parsing := second.parsing
  grows := first.grows.trans second.grows
  writes := (first.writes.mono fun _ ⟨s, mem, named⟩ =>
      ⟨s, List.mem_cons.mpr (.inl (List.mem_singleton.mp mem)), named⟩).trans
    (second.writes.mono fun _ ⟨s, mem, named⟩ => ⟨s, List.mem_cons_of_mem _ mem, named⟩)
  mapped later mem := by
    rcases List.mem_cons.mp mem with rfl | mem
    · exact fun programOrListener positive =>
        second.grows _ (first.mapped later (List.mem_singleton_self _) programOrListener positive)
    · exact second.mapped later mem

theorem parseProgramSection_parsed {c : Config} {sec : Section} {parsed : Config × Section}
    (mem : sec ∈ cfg.sectionList) (run : parseProgramSection c sec = .ok parsed)
    (inv : Parsing cfg here c) : Parsed cfg here [sec] c parsed.1 := by
  have single : ∀ key, InstanceName cfg here sec key →
      ∃ s ∈ [sec], InstanceName cfg here s key := fun key named => ⟨sec, List.mem_singleton_self _, named⟩
  unfold parseProgramSection at run
  split at run
  · next programOrListener =>
      dsimp only at run
      split at run
      · cases run
      · cases run
        rw [originalProcName_eq]
        obtain ⟨inv', grows, writes, mapped⟩ := instanceLoop_parsing mem programOrListener _ 1
          (c, (sec.key "numprocs").2) le_rfl (Nat.add_comm _ _).le inv
        refine ⟨inv', grows, writes.mono single, fun s same _ positive => ?_⟩
        obtain rfl := List.mem_singleton.mp same
        exact mapped (by omega)
  · next notProgram =>
      cases run
      exact ⟨inv, fun _ => id, Writes.refl _, fun s same programOrListener =>
        absurd (List.mem_singleton.mp same ▸ programOrListener) notProgram⟩

theorem parseProgram_parsed_foldlM :
    ∀ (sections : List Section) (state result : Config × List Section),
      (∀ sec ∈ sections, sec ∈ cfg.sectionList) →
      sections.foldlM parseProgramStep state = .ok result → Parsing cfg here state.1 →
      Parsed cfg here sections state.1 result.1
  | [], state, result, _, run, inv => by
      cases run
      exact ⟨inv, fun _ => id, Writes.refl _, fun _ none => absurd none (List.not_mem_nil _)⟩
  | sec :: rest, state, result, inFile, run, inv => by
      obtain ⟨next, step, restRun⟩ := except_bind_eq_ok.mp run
      obtain ⟨parsed, sectionRun, done⟩ := except_bind_eq_ok.mp step
      cases done
      have here := parseProgramSection_parsed (inFile sec (List.mem_cons_self _ _)) sectionRun inv
      exact here.cons (parseProgram_parsed_foldlM rest _ result
        (fun later mem => inFile later (List.mem_cons_of_mem _ mem)) restRun here.parsing)

/-- On a fresh store `parseGroup` leaves the entries of the group sections, the index of the
listed programs, and the file where it was. -/
theorem parsing_parseGroup_newConfig (path : String) (cfg : IniFile) :
    Parsing cfg (GoStd.dir path) ((newConfig path).parseGroup cfg) where
  dir := by rw [getConfigFileDir, configFile_parseGroup]; rfl
  entries := EntryGroups.foldl (fun c sec mem inv => by
      unfold parseGroupSection
      split
      · exact inv.set_parse ⟨sec, mem, rfl⟩ rfl
      · exact inv)
    fun _ _ found => by simp [newConfig] at found
  index program := by rw [lookup_parseGroup_newConfig]; rfl
  only program mapped := .inl (lookup_parseGroup_newConfig path cfg program ▸ mapped)

/-- The last pass parses sections named as the file's sections into the entries of their names. -/
theorem parsing_foldl_parseOtherSection {sections : List Section}
    (named : ∀ sec ∈ sections, ∃ orig ∈ cfg.sectionList, orig.name = sec.name) {c : Config}
    (inv : Parsing cfg here c) : Parsing cfg here (sections.foldl parseOtherSection c) where
  dir := by rw [getConfigFileDir, configFile_foldl_parseOtherSection]; exact inv.dir
  entries := EntryGroups.foldl (fun c sec mem inv => by
      unfold parseOtherSection
      split
      · exact inv.set_parse (named sec mem) rfl
      · exact inv)
    inv.entries
  index := by rw [programGroup_foldl_parseOtherSection]; exact inv.index
  only := by rw [programGroup_foldl_parseOtherSection]; exact inv.only

end Invariants

/-! ### A load into a fresh store -/

/-- A load into a fresh store puts every instance entry of a program in its `groupOf` group:
the group of the last `group:` section whose `programs` list, split at `,` with nothing
trimmed, has the program, or else the program's own name. The index maps the listed programs
and those that run an instance to that group, and no other program. -/
theorem load_assigns_groupOf {path : String} {fs : FileSystem} {cfg : IniFile} {c : Config}
    (read : (newConfig path).readFile fs = .ok cfg) (loaded : (newConfig path).load fs = .ok c) :
    GroupsAssigned cfg c := by
  rw [load, read] at loaded
  obtain ⟨parsed, programRun, done⟩ :=
    except_bind_eq_ok.mp (show (newConfig path).parse cfg = .ok c from loaded)
  cases done
  have groups := parsing_parseGroup_newConfig path cfg
  have programs := parseProgram_parsed_foldlM cfg.sectionList _ parsed (fun _ => id) programRun
    groups
  have last := parsing_foldl_parseOtherSection
    (fun sec mem => let ⟨orig, origMem, same⟩ := (writes_parseProgram programRun).2 sec mem
      ⟨orig, origMem, same.symm⟩) programs.parsing
  refine ⟨last.dir ▸ last.entries, last.index.lookup, fun program => ⟨last.only program, ?_⟩⟩
  rw [programGroup_foldl_parseOtherSection]
  rintro (listed | ⟨sec, mem, programOrListener, rfl, positive⟩)
  · exact programs.grows program (by rw [lookup_parseGroup_newConfig]; exact listed)
  · exact programs.mapped sec mem programOrListener positive

/-- `a, b` lists ` b` and not `b`, so `b` is in a group of its own; and a program
that runs no instance is not in the index. -/
theorem load_keeps_space_in_programs :
    let fs : FileSystem := ⟨fun _ => .ok (IniFile.ofList [("group:g", [("programs", "a, b")]),
      ("program:b", [("command", "/bin/b")]),
      ("program:c", [("command", "/bin/c"), ("numprocs", "0")])]), fun _ => none⟩
    ((newConfig "/etc/supervisord.conf").load fs).map (fun c =>
        ((c.entries.lookup "b").map (·.group), c.programGroup.processGroup.lookup "b",
          c.programGroup.processGroup.lookup "c")) =
      .ok (some "b", some "b", none) :=
  rfl

theorem load_assigns_groupOf_example :
    let cfg := IniFile.ofList [("group:g", [("programs", "a,b")]),
      ("program:b", [("command", "/bin/b")]),
      ("program:c", [("command", "/bin/c"), ("numprocs", "0")])]
    let fs : FileSystem := ⟨fun _ => .ok cfg, fun _ => none⟩
    let c := ((newConfig "/etc/supervisord.conf").load fs).toOption.getD
      (newConfig "/etc/supervisord.conf")
    (newConfig "/etc/supervisord.conf").readFile fs = .ok cfg ∧
      (newConfig "/etc/supervisord.conf").load fs = .ok c ∧ GroupsAssigned cfg c :=
  by
    intro cfg fs c
    have read : (newConfig "/etc/supervisord.conf").readFile fs = .ok cfg := by rfl
    have loaded : (newConfig "/etc/supervisord.conf").load fs = .ok c := by rfl
    exact ⟨read, loaded, @load_assigns_groupOf "/etc/supervisord.conf" fs cfg c read loaded⟩

end Config

end Supervisord

import Supervisord.Config.Idempotence

/-!
# Where the store keeps its entries

A parse writes a group section, and every section of its last pass, under the
section's own name, which then does not start with `program:`. It writes an
instance under the instance's evaluated name and names the entry with the
section prefix, `program:` or `eventlistener:`, before it. So in every store
that loads build from `NewConfig`, each entry is stored under a key its name
allows (`KeyNamed`); `keyNamed_load` shows that every load keeps this, whatever
the file.

It follows that a program entry's `GetProgramName` is the key it is stored
under. `GetProgramNames`, which `Reload` reads before and after its load, then
lists no name twice, and `GetProgram` finds exactly the program entry stored
under the name it is asked for.

No load removes a program from the group index either: `parseGroup` only adds
programs to groups and `parseProgram` only adds a program to a group of its own
name. So a load of a file without `group:` sections changes no program's group,
and a program whose group section is taken out of the file stays in its group.
-/

namespace Supervisord

namespace Config

/-- The names an entry stored under `key` can have: the key itself, when it does not start
with `program:`, or the key behind an instance's section prefix. -/
def NamedFor (key name : String) : Prop :=
  (name = key ∧ GoStd.hasPrefix key "program:" = false) ∨ name = "program:" ++ key ∨
    name = "eventlistener:" ++ key

/-- Every entry is stored under a key its name allows. -/
def KeyNamed (entries : GoMap ConfigEntry) : Prop :=
  ∀ key entry, entries.lookup key = some entry → NamedFor key entry.name

theorem keyNamed_empty : KeyNamed GoMap.empty := fun _ _ found => by simp at found

theorem KeyNamed.set {entries : GoMap ConfigEntry} (named : KeyNamed entries) {key : String}
    {entry : ConfigEntry} (fits : NamedFor key entry.name) : KeyNamed (entries.set key entry) :=
  fun other found stored => by
    rw [GoMap.lookup_set] at stored
    split at stored
    · next hit =>
        cases stored
        exact hit ▸ fits
    · exact named other found stored

/-- A program entry's program name is the key it is stored under. -/
theorem getProgramName_of_keyNamed {entries : GoMap ConfigEntry} (named : KeyNamed entries)
    {key : String} {entry : ConfigEntry} (stored : entries.lookup key = some entry)
    (program : entry.isProgram = true) : entry.getProgramName = key := by
  rcases named key entry stored with ⟨same, notProgram⟩ | prefixed | listener
  · rw [ConfigEntry.isProgram, ConfigEntry.isKind, same, notProgram] at program
    cases program
  · rw [ConfigEntry.getProgramName, ConfigEntry.kindName,
      if_pos (show entry.isKind "program:" = true from program), GoStd.dropChars, prefixed]
    rfl
  · rw [ConfigEntry.isProgram, ConfigEntry.isKind, listener] at program
    cases program

/-! ### Every load keeps the entries where their names allow -/

theorem keyNamed_parseGroupSection {c : Config} (named : KeyNamed c.entries) (sec : Section) :
    KeyNamed (parseGroupSection c sec).entries := by
  unfold parseGroupSection
  split
  · next group =>
      exact named.set (.inl ⟨rfl, GoStd.hasPrefix_eq_false_of_hasPrefix group
        ⟨by decide, by decide⟩⟩)
  · exact named

theorem kind_of_isProgramOrEventListener {sec : Section}
    (programOrListener : (isProgramOrEventListener sec).1 = true) :
    (isProgramOrEventListener sec).2 = "program:" ∨
      (isProgramOrEventListener sec).2 = "eventlistener:" := by
  unfold isProgramOrEventListener at programOrListener ⊢
  cases program : GoStd.hasPrefix sec.name "program:" <;>
    cases listener : GoStd.hasPrefix sec.name "eventlistener:" <;> simp_all

theorem keyNamed_parseInstance {kind : String} (kindIs : kind = "program:" ∨ kind = "eventlistener:")
    (programName orig : String) (i : Nat) (state : Config × Section)
    (named : KeyNamed state.1.entries) :
    KeyNamed (parseInstance kind programName orig i state).1.entries := by
  rw [parseInstance_eq]
  dsimp only
  rcases decided : (instanceWrite kind programName orig i
    (state.1.programGroup.getGroup programName programName).1 state.1.getConfigFileDir state.2).2
    with _ | ⟨key, w⟩
  · exact named
  · refine named.set ?_
    show NamedFor key w.name
    rw [(instanceWrite_eq_some decided).2]
    rcases kindIs with rfl | rfl
    · exact .inr (.inl rfl)
    · exact .inr (.inr rfl)

theorem keyNamed_instanceLoop {kind : String} (kindIs : kind = "program:" ∨ kind = "eventlistener:")
    (programName orig : String) :
    ∀ (remaining i : Nat) (state : Config × Section), KeyNamed state.1.entries →
      KeyNamed (instanceLoop kind programName orig remaining i state).1.entries
  | 0, _, _, named => named
  | remaining + 1, i, state, named => keyNamed_instanceLoop kindIs programName orig remaining
      (i + 1) _ (keyNamed_parseInstance kindIs programName orig i state named)

theorem keyNamed_parseProgramSection {c : Config} {sec : Section} {parsed : Config × Section}
    (named : KeyNamed c.entries) (run : parseProgramSection c sec = .ok parsed) :
    KeyNamed parsed.1.entries := by
  by_cases programOrListener : (isProgramOrEventListener sec).1 = true
  · rw [eq_instanceLoop_of_parseProgramSection programOrListener run]
    exact keyNamed_instanceLoop (kind_of_isProgramOrEventListener programOrListener) _ _ _ 1
      (c, (sec.key "numprocs").2) named
  · rw [parseProgramSection_of_not programOrListener] at run
    cases run
    exact named

theorem keyNamed_parseOtherSection {c : Config} (named : KeyNamed c.entries) (sec : Section) :
    KeyNamed (parseOtherSection c sec).entries := by
  unfold parseOtherSection
  split
  · next other =>
      simp only [Bool.and_eq_true, Bool.not_eq_true'] at other
      exact named.set (.inl ⟨rfl, other.2⟩)
  · exact named

theorem keyNamed_parseGroup {c : Config} (named : KeyNamed c.entries) (cfg : IniFile) :
    KeyNamed (c.parseGroup cfg).entries :=
  List.foldlRecOn (motive := fun c : Config => KeyNamed c.entries) _ _ _ named
    fun _ named sec _ => keyNamed_parseGroupSection named sec

theorem keyNamed_foldlM_parseProgramStep {sections : List Section}
    {state result : Config × List Section} (named : KeyNamed state.1.entries)
    (run : sections.foldlM parseProgramStep state = .ok result) : KeyNamed result.1.entries :=
  foldlM_invariant (fun s : Config × List Section => KeyNamed s.1.entries)
    (fun _ _ _ _ named stepped => by
      obtain ⟨r, sectionRun, done⟩ := except_bind_eq_ok.mp stepped
      cases done
      exact keyNamed_parseProgramSection named sectionRun)
    named run

/-- Every load keeps each entry under a key its name allows, whatever the file. -/
theorem keyNamed_load {fs : FileSystem} {c c' : Config} (named : KeyNamed c.entries)
    (loaded : c.load fs = .ok c') : KeyNamed c'.entries := by
  obtain ⟨cfg, -, parsed⟩ := except_bind_eq_ok.mp loaded
  obtain ⟨p, programRun, done⟩ := except_bind_eq_ok.mp parsed
  cases done
  exact List.foldlRecOn (motive := fun c : Config => KeyNamed c.entries) _ _ _
    (keyNamed_foldlM_parseProgramStep (keyNamed_parseGroup named cfg) programRun)
    fun _ named sec _ => keyNamed_parseOtherSection named sec

/-- So does every load that panics, in the store it leaves. -/
theorem keyNamed_storeAfterLoad {c : Config} (named : KeyNamed c.entries) (fs : FileSystem) :
    KeyNamed (c.storeAfterLoad fs).entries := by
  rcases storeAfterLoad_cases fs c with same | ⟨c', loaded, same⟩ |
      ⟨cfg, pre, result, -, -, run, same⟩ <;> rw [same]
  · exact named
  · exact keyNamed_load named loaded
  · exact keyNamed_foldlM_parseProgramStep (keyNamed_parseGroup named cfg) run

/-! ### Program names -/

/-- In a store whose entries sit where their names allow, the program names are the keys of
the program entries, so none is listed twice. -/
theorem nodup_programNames_of_keyNamed {c : Config} (named : KeyNamed c.entries) :
    ((c.getEntries ConfigEntry.isProgram).map ConfigEntry.getProgramName).Nodup := by
  have keys : (c.getEntries ConfigEntry.isProgram).map ConfigEntry.getProgramName =
      (c.entries.entries.filter fun pair => pair.2.isProgram).map Prod.fst := by
    rw [getEntries, List.filter_map, List.map_map]
    refine List.map_congr_left fun pair mem => ?_
    obtain ⟨listed, program⟩ := List.mem_filter.mp mem
    exact getProgramName_of_keyNamed named ((GoMap.lookup_eq_some_iff _ _ _).mpr listed) program
  rw [keys]
  exact ((List.filter_sublist _).map Prod.fst).nodup c.entries.nodupKeys

theorem find?_program_eq_lookup :
    ∀ (pairs : List (String × ConfigEntry)), (pairs.map Prod.fst).Nodup →
      (∀ pair ∈ pairs, pair.2.isProgram = true → pair.2.getProgramName = pair.1) →
      ∀ name, (pairs.map Prod.snd).find? (fun entry => entry.isProgram && entry.getProgramName = name) =
        (pairs.lookup name).filter ConfigEntry.isProgram
  | [], _, _, _ => rfl
  | (key, entry) :: rest, nodup, named, name => by
      simp only [List.map_cons, List.nodup_cons] at nodup
      have later := find?_program_eq_lookup rest nodup.2
        (fun pair mem => named pair (List.mem_cons_of_mem _ mem)) name
      rw [List.map_cons, List.find?_cons, GoMap.lookup_cons_eq]
      by_cases program : entry.isProgram = true
      · have own := named (key, entry) (List.mem_cons_self _ _) program
        by_cases hit : name = key
        · subst hit
          simp [program, own, Option.filter]
        · simp [program, own, Ne.symm hit, hit, later]
      · by_cases hit : name = key
        · subst hit
          simp [program, later, GoMap.lookup_eq_none_of_not_mem nodup.1, Option.filter]
        · simp [program, hit, later]

/-- With a `sortProgram` that only reorders, `GetProgramNames` lists no name twice. -/
theorem nodup_getProgramNames_of_keyNamed {sortProgram : List ConfigEntry → List ConfigEntry}
    (sorted : ∀ programs, (sortProgram programs).Perm programs) {c : Config}
    (named : KeyNamed c.entries) : (c.getProgramNames sortProgram).Nodup := by
  rw [getProgramNames, getPrograms]
  exact (((sorted _).trans (sorted _)).map _).nodup_iff.mpr (nodup_programNames_of_keyNamed named)

/-- `GetProgram` finds the entry stored under the name it is asked for, when that entry is a
program, and nothing otherwise. -/
theorem getProgram_of_keyNamed {c : Config} (named : KeyNamed c.entries) (name : String) :
    c.getProgram name = (c.entries.lookup name).filter ConfigEntry.isProgram :=
  find?_program_eq_lookup c.entries.entries c.entries.nodupKeys
    (fun _ mem program => getProgramName_of_keyNamed named
      ((GoMap.lookup_eq_some_iff _ _ _).mpr mem) program) name

/-! ### The group index -/

/-- `parseGroup` never removes a program from the group index. -/
theorem isSome_lookup_parseGroup (c : Config) (cfg : IniFile) {program : String}
    (mapped : (c.programGroup.processGroup.lookup program).isSome) :
    ((c.parseGroup cfg).programGroup.processGroup.lookup program).isSome :=
  List.foldlRecOn (motive := fun c : Config => (c.programGroup.processGroup.lookup program).isSome)
    _ _ _ mapped fun c mapped sec _ => by
      unfold parseGroupSection
      split
      · dsimp only
        rw [ProcessGroup.lookup_foldl_add]
        split
        · rfl
        · exact mapped
      · exact mapped

/-- Without `group:` sections the first pass of `parse` changes nothing. -/
theorem parseGroup_of_ungrouped (c : Config) {cfg : IniFile}
    (ungrouped : ∀ sec ∈ cfg.sectionList, GoStd.hasPrefix sec.name "group:" = false) :
    c.parseGroup cfg = c :=
  List.foldlRecOn (motive := fun c' : Config => c' = c) _ _ _ rfl fun _ same sec mem => by
    rw [parseGroupSection, if_neg (by rw [ungrouped sec mem]; decide), same]

/-- A load never removes a program from the group index. -/
theorem isSome_lookup_load {fs : FileSystem} {c c' : Config} (loaded : c.load fs = .ok c')
    {program : String} (mapped : (c.programGroup.processGroup.lookup program).isSome) :
    (c'.programGroup.processGroup.lookup program).isSome := by
  obtain ⟨cfg, -, parsed⟩ := except_bind_eq_ok.mp loaded
  obtain ⟨group, found⟩ := Option.isSome_iff_exists.mp (isSome_lookup_parseGroup c cfg mapped)
  rw [(defaults_parse parsed).kept _ _ found]
  rfl

/-- A load of a file without `group:` sections changes no program's group. -/
theorem defaults_load_of_ungrouped {fs : FileSystem} {c c' : Config} {cfg : IniFile}
    (read : c.readFile fs = .ok cfg)
    (ungrouped : ∀ sec ∈ cfg.sectionList, GoStd.hasPrefix sec.name "group:" = false)
    (loaded : c.load fs = .ok c') : ProcessGroup.Defaults c.programGroup c'.programGroup := by
  rw [load, read] at loaded
  have ahead := defaults_parse loaded
  rwa [parseGroup_of_ungrouped c ungrouped] at ahead

/-- Nor does a load that panics remove a program from the index. -/
theorem isSome_lookup_storeAfterLoad {c : Config} (fs : FileSystem) {program : String}
    (mapped : (c.programGroup.processGroup.lookup program).isSome) :
    ((c.storeAfterLoad fs).programGroup.processGroup.lookup program).isSome := by
  rcases storeAfterLoad_cases fs c with same | ⟨c', loaded, same⟩ |
      ⟨cfg, pre, result, -, -, run, same⟩ <;> rw [same]
  · exact mapped
  · exact isSome_lookup_load loaded mapped
  · obtain ⟨group, found⟩ := Option.isSome_iff_exists.mp (isSome_lookup_parseGroup c cfg mapped)
    rw [(defaults_foldlM_parseProgramStep run).kept _ _ found]
    rfl

/-- Nor does one that panics on a file without `group:` sections change a program's group. -/
theorem defaults_storeAfterLoad_of_ungrouped {c : Config} {fs : FileSystem}
    (ungrouped : ∀ cfg, c.readFile fs = .ok cfg →
      ∀ sec ∈ cfg.sectionList, GoStd.hasPrefix sec.name "group:" = false) :
    ProcessGroup.Defaults c.programGroup (c.storeAfterLoad fs).programGroup := by
  rcases storeAfterLoad_cases fs c with same | ⟨c', loaded, same⟩ |
      ⟨cfg, pre, result, read, -, run, same⟩ <;> rw [same]
  · exact ProcessGroup.Defaults.refl _
  · obtain ⟨cfg, read, -⟩ := except_bind_eq_ok.mp loaded
    exact defaults_load_of_ungrouped read (ungrouped cfg read) loaded
  · have ahead := defaults_foldlM_parseProgramStep run
    rwa [parseGroup_of_ungrouped c (ungrouped cfg read)] at ahead

theorem configFile_storeAfterLoad (fs : FileSystem) (c : Config) :
    (c.storeAfterLoad fs).configFile = c.configFile := by
  rcases storeAfterLoad_cases fs c with same | ⟨c', loaded, same⟩ |
      ⟨cfg, pre, result, -, -, run, same⟩ <;> rw [same]
  · exact configFile_load loaded
  · rw [configFile_foldlM_parseProgramStep run, configFile_parseGroup]

/-- Whether a load fails, and how, depends only on the configuration file: reading the files
reads nothing else, and `parse` panics on the file alone. -/
theorem load_eq_error_congr {fs : FileSystem} {c c' : Config} {err : Failure}
    (file : c'.configFile = c.configFile) (failed : c.load fs = .error err) :
    c'.load fs = .error err := by
  unfold load at failed ⊢
  rw [readFile_congr file]
  cases read : c.readFile fs with
  | error e =>
      rw [read] at failed
      exact failed
  | ok cfg =>
      rw [read] at failed
      exact (parse_eq_error_iff c' cfg err).mpr ((parse_eq_error_iff c cfg err).mp failed)

end Config

end Supervisord

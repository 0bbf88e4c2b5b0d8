import Supervisord.Config.Instances

/-!
# Loading the same file again

`Load` parses into the store it is called on, so a reload of an unchanged file
parses the file a second time into the result of the first parse. We show that
the second parse changes nothing, provided no program or event listener
instance of the file is named like a `group:` section.

Every entry a parse touches is the entry `createEntry` found under a key, or a
fresh one, rewritten by an `EntryWrite`: pairs set in order, a name, and for an
instance a group. Writes compose (`apply_andThen`), and a write repeated is the
write once (`apply_apply`), so the entries under one key after any sequence of
writes are given by one accumulated write, `rewrite`, and `rewrite_rewrite`
says a sequence of writes repeated from its own result changes nothing.

The second parse is run beside the first (`Beside`). Its first pass finds
every group entry and every group mapping the first parse left and changes
nothing (`parseGroup_of_parse`); after that, each step makes the write the
first parse made at the same step. For an instance this holds because both
ask `GetGroup` the same question and get the same answer: the first parse's
index only grows by defaults (`Defaults`), and the second reads the index the
first ended with. `Tracks.eq_of_first` then closes the argument.

Without the proviso the statement is false: an instance named `group:g`
rewrites the entry of section `group:g`, and the second parse reads that
entry's `programs` in its first pass.
-/

namespace Supervisord

/-- One write of a parse to an entry: the pairs it sets in order, the name it gives it, and
the group it gives it, if any. -/
structure EntryWrite where
  pairs : List (String × String)
  name : String
  group : Option String

namespace EntryWrite

/-- The entry after the write. -/
def apply (w : EntryWrite) (entry : ConfigEntry) : ConfigEntry :=
  ⟨entry.configDir, w.group.getD entry.group, w.name,
    w.pairs.foldl (fun kv key => kv.set key.1 key.2) entry.keyValues⟩

/-- `w₁` followed by `w₂`, as one write. -/
def andThen (w₁ w₂ : EntryWrite) : EntryWrite :=
  ⟨w₁.pairs ++ w₂.pairs, w₂.name, w₂.group.or w₁.group⟩

theorem apply_andThen (w₁ w₂ : EntryWrite) (entry : ConfigEntry) :
    (w₁.andThen w₂).apply entry = w₂.apply (w₁.apply entry) := by
  obtain ⟨_, _, _ | _⟩ := w₂ <;> simp [apply, andThen, List.foldl_append]

/-- A write repeated is the write once. -/
theorem apply_apply (w : EntryWrite) (entry : ConfigEntry) :
    w.apply (w.apply entry) = w.apply entry := by
  obtain ⟨_, _, _ | _⟩ := w <;> simp [apply, GoMap.foldl_set_foldl_set]

end EntryWrite

/-- The write of `ConfigEntry.parse` for a section. -/
def Section.write (sec : Section) : EntryWrite := ⟨sec.keys.entries, sec.name, none⟩

theorem ConfigEntry.parse_eq_apply (entry : ConfigEntry) (sec : Section) :
    entry.parse sec = sec.write.apply entry := rfl

/-- The entry under a key after the writes accumulated in `r`, from the entry `found` the key
held before them: the first write starts from a fresh entry in `configDir` when there is none. -/
def rewrite (configDir : String) : Option EntryWrite → Option ConfigEntry → Option ConfigEntry
  | none, found => found
  | some w, found => some (w.apply (found.getD (newConfigEntry configDir)))

/-- The writes `r` followed by `w`. -/
def pushWrite : Option EntryWrite → EntryWrite → EntryWrite
  | none, w => w
  | some w₀, w => w₀.andThen w

theorem rewrite_pushWrite (configDir : String) (r : Option EntryWrite) (w : EntryWrite)
    (found : Option ConfigEntry) :
    rewrite configDir (some (pushWrite r w)) found =
      some (w.apply ((rewrite configDir r found).getD (newConfigEntry configDir))) := by
  cases r <;> simp [rewrite, pushWrite, EntryWrite.apply_andThen]

/-- Writes repeated from their own result change nothing. -/
theorem rewrite_rewrite (configDir : String) (r : Option EntryWrite) (found : Option ConfigEntry) :
    rewrite configDir r (rewrite configDir r found) = rewrite configDir r found := by
  cases r <;> simp [rewrite, EntryWrite.apply_apply]

/-- The entries after `w` is written to the entry under `key`, which `createEntry` finds or
makes fresh in `configDir`. -/
def writeEntry (entries : GoMap ConfigEntry) (configDir key : String) (w : EntryWrite) :
    GoMap ConfigEntry :=
  entries.set key (w.apply ((entries.lookup key).getD (newConfigEntry configDir)))

/-- Two runs of writes, from `x` to `a` and from `y` to `b`, made the same writes under every
key; the second kept the keys of `y` in their order. -/
structure Tracks (configDir : String) (x y a b : GoMap ConfigEntry) : Prop where
  same : ∀ key, ∃ r, a.lookup key = rewrite configDir r (x.lookup key) ∧
    b.lookup key = rewrite configDir r (y.lookup key)
  grows : y.keys <+: b.keys

namespace Tracks

variable {configDir : String} {x y a b : GoMap ConfigEntry}

theorem refl (configDir : String) (x y : GoMap ConfigEntry) : Tracks configDir x y x y :=
  ⟨fun _ => ⟨none, rfl, rfl⟩, List.prefix_refl _⟩

/-- Both runs write `w` under `key`. -/
theorem write (tracks : Tracks configDir x y a b) (key : String) (w : EntryWrite) :
    Tracks configDir x y (writeEntry a configDir key w) (writeEntry b configDir key w) where
  same other := by
    obtain ⟨r, first, second⟩ := tracks.same other
    by_cases hit : other = key
    · subst hit
      refine ⟨some (pushWrite r w), ?_, ?_⟩ <;>
        simp only [writeEntry, GoMap.lookup_set, if_true, rewrite_pushWrite, first, second]
    · exact ⟨r, by simp [writeEntry, hit, first], by simp [writeEntry, hit, second]⟩
  grows := tracks.grows.trans (GoMap.keys_prefix_set _ _ _)

/-- A second run that made, from the first run's result, the writes the first run made is
back at that result. -/
theorem eq_of_first (tracks : Tracks configDir x y y b) : b = y := by
  have lookups : ∀ key, b.lookup key = y.lookup key := fun key => by
    obtain ⟨r, first, second⟩ := tracks.same key
    rw [second, first, rewrite_rewrite]
  have within : b.keys ⊆ y.keys := fun key mem => by
    rw [GoMap.keys, GoMap.mem_keys_iff_isSome, ← GoMap.lookup] at mem ⊢
    rwa [← lookups key]
  exact GoMap.eq_of_keys_lookup (tracks.grows.eq_of_length (Nat.le_antisymm tracks.grows.length_le
    (List.subperm_of_subset b.nodupKeys within).length_le)).symm lookups

end Tracks

/-! ### A parse as a sequence of writes -/

namespace ProcessGroup

/-- `pg'` keeps every program of `pg` in its group, and puts a program `pg` lacks, if at all,
in the group of the program's own name: what `GetGroup` calls with the program as default do. -/
structure Defaults (pg pg' : ProcessGroup) : Prop where
  kept : ∀ p g, pg.processGroup.lookup p = some g → pg'.processGroup.lookup p = some g
  fresh : ∀ p, pg.processGroup.lookup p = none →
    pg'.processGroup.lookup p = none ∨ pg'.processGroup.lookup p = some p

namespace Defaults

variable {pg pg' pg'' : ProcessGroup}

theorem refl (pg : ProcessGroup) : Defaults pg pg := ⟨fun _ _ => id, fun _ => .inl⟩

theorem trans (first : Defaults pg pg') (second : Defaults pg' pg'') : Defaults pg pg'' where
  kept p g found := second.kept p g (first.kept p g found)
  fresh p absent := (first.fresh p absent).elim (second.fresh p) (.inr ∘ second.kept p p)

theorem getGroup (pg : ProcessGroup) (p : String) : Defaults pg (pg.getGroup p p).2 where
  kept other g found := by
    rw [lookup_getGroup]
    split
    · next hit => rw [← hit, found]; rfl
    · exact found
  fresh other absent := by
    rw [lookup_getGroup]
    split
    · next hit => exact .inr (by rw [← hit, absent]; rfl)
    · exact .inl absent

/-- An index the index after a `GetGroup` defaults to answers the same `GetGroup` with the same
group, and without change. -/
theorem getGroup_eq (ahead : Defaults (pg.getGroup p p).2 pg') :
    pg'.getGroup p p = ((pg.getGroup p p).1, pg') := by
  have found := ahead.kept p ((pg.processGroup.lookup p).getD p)
    (by rw [lookup_getGroup, if_pos rfl])
  rw [fst_getGroup, ProcessGroup.getGroup, found]

/-- Mappings added on top of `x` that `y` defaults to are already in `y`. -/
theorem foldl_set_eq (pairs : List (String × String)) {x y : GoMap String}
    (ahead : Defaults ⟨pairs.foldl (fun m pair => m.set pair.1 pair.2) x⟩ ⟨y⟩) :
    pairs.foldl (fun m pair => m.set pair.1 pair.2) y = y :=
  GoMap.foldl_set_of_lookup _ _ fun key value last =>
    ahead.kept key value (by rw [GoMap.lookup_foldl_set_reverse, last]; rfl)

end Defaults

end ProcessGroup

namespace Config

/-- What one instance of the loop decides once `GetGroup` has given its group: the section it
leaves, and the key and write of the entry it makes, if it makes one. -/
def instanceWrite (kind programName orig : String) (i : Nat) (group here : String) (sec : Section) :
    Section × Option (String × EntryWrite) :=
  let envs := instanceEnv programName i group here
  let command := sec.key "command"
  match envs.eval command.1 with
  | .error _ => (command.2, none)
  | .ok cmd =>
      let sec := command.2.newKey "command" cmd
      match envs.eval orig with
      | .error _ => (sec, none)
      | .ok procName =>
          let sec := ((sec.newKey "process_name" procName).newKey "numprocs_start"
            (toString (i - 1))).newKey "process_num" (toString i)
          (sec, some (procName, ⟨sec.keys.entries, kind ++ procName, some group⟩))

/-- One instance asks `GetGroup` for the program's group, then makes the write
`instanceWrite` decides with that group; the second `GetGroup` finds the first's answer. -/
theorem parseInstance_eq (kind programName orig : String) (i : Nat) (state : Config × Section) :
    parseInstance kind programName orig i state =
      let found := state.1.programGroup.getGroup programName programName
      let decided := instanceWrite kind programName orig i found.1 state.1.getConfigFileDir state.2
      ({ state.1 with
          programGroup := found.2
          entries := decided.2.elim state.1.entries fun write =>
            writeEntry state.1.entries state.1.getConfigFileDir write.1 write.2 }, decided.1) := by
  unfold parseInstance instanceWrite
  dsimp only [getConfigFileDir]
  generalize instanceEnv programName i (state.1.programGroup.getGroup programName programName).1
    (GoStd.dir state.1.configFile) = envs
  cases envs.eval (state.2.key "command").1 with
  | error => rfl
  | ok cmd =>
      cases envs.eval orig with
      | error => rfl
      | ok procName =>
          simp only [Option.elim, ProcessGroup.getGroup_getGroup]
          rfl

/-- An instance writes under its name evaluated with the instance's bindings, and names the
entry with the section prefix before it. -/
theorem instanceWrite_eq_some {kind programName orig : String} {i : Nat} {group here : String}
    {sec : Section} {key : String} {w : EntryWrite}
    (wrote : (instanceWrite kind programName orig i group here sec).2 = some (key, w)) :
    (instanceEnv programName i group here).eval orig = .ok key ∧ w.name = kind ++ key := by
  unfold instanceWrite at wrote
  dsimp only at wrote
  split at wrote
  · cases wrote
  · split at wrote
    · cases wrote
    · next procName evaluated =>
        cases wrote
        exact ⟨evaluated, rfl⟩

theorem defaults_parseInstance (kind programName orig : String) (i : Nat)
    (state : Config × Section) : ProcessGroup.Defaults state.1.programGroup
      (parseInstance kind programName orig i state).1.programGroup := by
  rw [parseInstance_eq]
  exact ProcessGroup.Defaults.getGroup _ _

theorem defaults_instanceLoop (kind programName orig : String) :
    ∀ (remaining i : Nat) (state : Config × Section), ProcessGroup.Defaults state.1.programGroup
      (instanceLoop kind programName orig remaining i state).1.programGroup
  | 0, _, _ => ProcessGroup.Defaults.refl _
  | remaining + 1, i, state => (defaults_parseInstance kind programName orig i state).trans
      (defaults_instanceLoop kind programName orig remaining (i + 1) _)

theorem defaults_parseProgramSection {c : Config} {sec : Section} {parsed : Config × Section}
    (run : parseProgramSection c sec = .ok parsed) :
    ProcessGroup.Defaults c.programGroup parsed.1.programGroup := by
  by_cases programOrListener : (isProgramOrEventListener sec).1 = true
  · rw [eq_instanceLoop_of_parseProgramSection programOrListener run]
    exact defaults_instanceLoop _ _ _ _ _ (c, (sec.key "numprocs").2)
  · rw [parseProgramSection_of_not programOrListener] at run
    cases run
    exact ProcessGroup.Defaults.refl _

/-- `parseProgram`'s index only grows by defaults. -/
theorem defaults_foldlM_parseProgramStep {sections : List Section}
    {state result : Config × List Section}
    (run : sections.foldlM parseProgramStep state = .ok result) :
    ProcessGroup.Defaults state.1.programGroup result.1.programGroup :=
  foldlM_invariant
    (fun s : Config × List Section => ProcessGroup.Defaults state.1.programGroup s.1.programGroup)
    (fun _ _ _ _ before stepped => by
      obtain ⟨r, sectionRun, done⟩ := except_bind_eq_ok.mp stepped
      cases done
      exact before.trans (defaults_parseProgramSection sectionRun))
    (ProcessGroup.Defaults.refl _) run

/-- After its first pass, a parse changes the group index only by defaults. -/
theorem defaults_parse {c c' : Config} {cfg : IniFile} (parsed : c.parse cfg = .ok c') :
    ProcessGroup.Defaults (c.parseGroup cfg).programGroup c'.programGroup := by
  obtain ⟨p, programRun, done⟩ := except_bind_eq_ok.mp parsed
  cases done
  rw [programGroup_foldl_parseOtherSection]
  exact defaults_foldlM_parseProgramStep programRun

/-- A second parse of a file beside the first, from the first parse's result: the same
configuration file, entries that made the same writes, and the group index the first parse
ends with. -/
structure Beside (configFile : String) (x y : GoMap ConfigEntry) (index : ProcessGroup)
    (a b : Config) : Prop where
  first : a.configFile = configFile
  second : b.configFile = configFile
  tracks : Tracks (GoStd.dir configFile) x y a.entries b.entries
  groups : b.programGroup = index

namespace Beside

variable {configFile : String} {x y : GoMap ConfigEntry} {index : ProcessGroup} {a b : Config}

theorem dir_first (beside : Beside configFile x y index a b) :
    a.getConfigFileDir = GoStd.dir configFile := by
  rw [getConfigFileDir, beside.first]

theorem dir_second (beside : Beside configFile x y index a b) :
    b.getConfigFileDir = GoStd.dir configFile := by
  rw [getConfigFileDir, beside.second]

/-- Both parses run an instance on the same section; the first's index then defaults to the
index the second reads, so both get the same group and make the same write. -/
theorem parseInstance (beside : Beside configFile x y index a b)
    (kind programName orig : String) (i : Nat) (sec : Section)
    (ahead : ProcessGroup.Defaults
      (parseInstance kind programName orig i (a, sec)).1.programGroup index) :
    Beside configFile x y index (Config.parseInstance kind programName orig i (a, sec)).1
        (Config.parseInstance kind programName orig i (b, sec)).1 ∧
      (Config.parseInstance kind programName orig i (b, sec)).2 =
        (Config.parseInstance kind programName orig i (a, sec)).2 := by
  rw [parseInstance_eq] at ahead
  have asked := beside.groups ▸ ProcessGroup.Defaults.getGroup_eq ahead
  rw [parseInstance_eq, parseInstance_eq]
  dsimp only
  rw [asked, beside.dir_first, beside.dir_second]
  refine ⟨?_, rfl⟩
  obtain ⟨_, _ | ⟨key, w⟩⟩ := instanceWrite kind programName orig i
    (a.programGroup.getGroup programName programName).1 (GoStd.dir configFile) sec
  · exact ⟨beside.first, beside.second, beside.tracks, beside.groups⟩
  · exact ⟨beside.first, beside.second, beside.tracks.write key w, beside.groups⟩

theorem instanceLoop (kind programName orig : String) :
    ∀ (remaining i : Nat) (sa sb : Config × Section), sb.2 = sa.2 →
      Beside configFile x y index sa.1 sb.1 →
      ProcessGroup.Defaults
        (Config.instanceLoop kind programName orig remaining i sa).1.programGroup index →
      Beside configFile x y index (Config.instanceLoop kind programName orig remaining i sa).1
          (Config.instanceLoop kind programName orig remaining i sb).1 ∧
        (Config.instanceLoop kind programName orig remaining i sb).2 =
          (Config.instanceLoop kind programName orig remaining i sa).2
  | 0, _, _, _, same, beside, _ => ⟨beside, same⟩
  | remaining + 1, i, ⟨a, sec⟩, ⟨b, _⟩, rfl, beside, ahead => by
      rw [Config.instanceLoop] at ahead ⊢
      have step := beside.parseInstance kind programName orig i sec
        ((defaults_instanceLoop kind programName orig remaining (i + 1) _).trans ahead)
      rw [Config.instanceLoop]
      exact instanceLoop kind programName orig remaining (i + 1) _ _ step.2 step.1 ahead

theorem parseProgramSection (beside : Beside configFile x y index a b) {sec : Section}
    {pa : Config × Section} (run : Config.parseProgramSection a sec = .ok pa)
    (ahead : ProcessGroup.Defaults pa.1.programGroup index) :
    ∃ pb, Config.parseProgramSection b sec = .ok pb ∧ Beside configFile x y index pa.1 pb.1 ∧
      pb.2 = pa.2 := by
  cases second : Config.parseProgramSection b sec with
  | error f =>
      obtain ⟨dereferences, rfl⟩ := (parseProgramSection_eq_error b sec f).mp second
      rw [(parseProgramSection_eq_error a sec _).mpr ⟨dereferences, rfl⟩] at run
      cases run
  | ok pb =>
      refine ⟨pb, rfl, ?_⟩
      by_cases programOrListener : (isProgramOrEventListener sec).1 = true
      · rw [eq_instanceLoop_of_parseProgramSection programOrListener run] at ahead ⊢
        rw [eq_instanceLoop_of_parseProgramSection programOrListener second]
        exact beside.instanceLoop _ _ _ _ 1 _ _ rfl ahead
      · rw [parseProgramSection_of_not programOrListener] at run second
        cases run
        cases second
        exact ⟨beside, rfl⟩

theorem parseProgram :
    ∀ (sections : List Section) (sa sb result : Config × List Section),
      sections.foldlM parseProgramStep sa = .ok result → sb.2 = sa.2 →
      Beside configFile x y index sa.1 sb.1 →
      ProcessGroup.Defaults result.1.programGroup index →
      ∃ rb, sections.foldlM parseProgramStep sb = .ok rb ∧
        Beside configFile x y index result.1 rb.1 ∧ rb.2 = result.2
  | [], _, sb, _, run, same, beside, _ => by
      cases run
      exact ⟨sb, rfl, beside, same⟩
  | sec :: rest, sa, sb, result, run, same, beside, ahead => by
      obtain ⟨next, stepped, restRun⟩ := except_bind_eq_ok.mp run
      obtain ⟨pa, sectionRun, done⟩ := except_bind_eq_ok.mp stepped
      cases done
      obtain ⟨pb, sectionRun', beside', same'⟩ := beside.parseProgramSection sectionRun
        ((defaults_foldlM_parseProgramStep restRun).trans ahead)
      obtain ⟨rb, restRun', besideEnd, sameEnd⟩ :=
        parseProgram rest _ (pb.1, sb.2 ++ [pb.2]) result
        restRun (by rw [same, same']) beside' ahead
      refine ⟨rb, ?_, besideEnd, sameEnd⟩
      rw [List.foldlM_cons, parseProgramStep, sectionRun']
      exact restRun'

theorem foldl_parseOtherSection (sections : List Section) :
    ∀ {a b : Config}, Beside configFile x y index a b →
      Beside configFile x y index (sections.foldl Config.parseOtherSection a)
        (sections.foldl Config.parseOtherSection b) := by
  induction sections with
  | nil => exact id
  | cons sec rest ih =>
      intro a b beside
      refine ih ?_
      unfold Config.parseOtherSection
      split
      · refine ⟨beside.first, beside.second, ?_, beside.groups⟩
        show Tracks _ x y (writeEntry a.entries a.getConfigFileDir sec.name sec.write)
          (writeEntry b.entries b.getConfigFileDir sec.name sec.write)
        rw [beside.dir_first, beside.dir_second]
        exact beside.tracks.write sec.name sec.write
      · exact beside

end Beside

/-! ### The first pass -/

/-- The entry `parseGroupSection` resolves a group section to. -/
def groupEntry (c : Config) (sec : Section) : ConfigEntry :=
  (c.createEntry sec.name c.getConfigFileDir).parse sec

theorem groupEntry_congr {c c' : Config} {sec : Section} (file : c'.configFile = c.configFile)
    (found : c'.entries.lookup sec.name = c.entries.lookup sec.name) :
    groupEntry c' sec = groupEntry c sec := by
  simp only [groupEntry, createEntry, getConfigFileDir, file, found]

theorem foldl_add (pg : ProcessGroup) (group : String) (programs : List String) :
    programs.foldl (fun pg program => pg.add group program) pg =
      ⟨(programs.map fun program => (program, group)).foldl (fun m pair => m.set pair.1 pair.2)
        pg.processGroup⟩ := by
  induction programs generalizing pg with
  | nil => rfl
  | cons program rest ih => exact ih _

/-- The group mappings of an entry. -/
def groupPairs (entry : ConfigEntry) : List (String × String) :=
  entry.getPrograms.map fun program => (program, entry.getGroupName)

/-- `parseGroup` over sections of distinct names, each group section resolving to `entryOf`:
the group entries are written in order, then every group's mappings are added in order. -/
theorem foldl_parseGroupSection (entryOf : Section → ConfigEntry) :
    ∀ (sections : List Section) (c : Config), (sections.map Section.name).Nodup →
      (∀ sec ∈ sections, GoStd.hasPrefix sec.name "group:" = true →
        groupEntry c sec = entryOf sec) →
      let groups := sections.filter fun sec => GoStd.hasPrefix sec.name "group:"
      sections.foldl parseGroupSection c =
        { c with
          entries := (groups.map fun sec => (sec.name, entryOf sec)).foldl
            (fun m pair => m.set pair.1 pair.2) c.entries
          programGroup := ⟨(groups.flatMap fun sec => groupPairs (entryOf sec)).foldl
            (fun m pair => m.set pair.1 pair.2) c.programGroup.processGroup⟩ }
  | [], _, _, _ => rfl
  | sec :: rest, c, nodup, resolved => by
      simp only [List.map_cons, List.nodup_cons] at nodup
      have later : ∀ c' : Config, c'.configFile = c.configFile →
          (∀ s ∈ rest, c'.entries.lookup s.name = c.entries.lookup s.name) →
          ∀ s ∈ rest, GoStd.hasPrefix s.name "group:" = true → groupEntry c' s = entryOf s :=
        fun c' file found s mem group =>
          (groupEntry_congr file (found s mem)).trans
            (resolved s (List.mem_cons_of_mem _ mem) group)
      dsimp only
      rw [List.foldl_cons]
      by_cases group : GoStd.hasPrefix sec.name "group:" = true
      · have step : parseGroupSection c sec = { c with
            entries := c.entries.set sec.name (entryOf sec)
            programGroup := ⟨(groupPairs (entryOf sec)).foldl (fun m pair => m.set pair.1 pair.2)
              c.programGroup.processGroup⟩ } := by
          rw [parseGroupSection, if_pos group, ← resolved sec (List.mem_cons_self _ _) group]
          dsimp only
          rw [foldl_add]
          rfl
        simp only [step, List.filter_cons, group, if_true]
        refine (foldl_parseGroupSection entryOf rest _ nodup.2 (later _ (by rfl) fun s mem => by
          refine GoMap.lookup_set_of_ne _ _ fun same => nodup.1 ?_
          rw [← same]
          exact List.mem_map_of_mem _ mem)).trans ?_
        simp only [List.map_cons, List.flatMap_cons, List.foldl_cons, List.foldl_append]
      · simp only [parseGroupSection, group, if_false, List.filter_cons]
        exact foldl_parseGroupSection entryOf rest c nodup.2 (later c rfl fun _ _ => rfl)

/-! ### What the first parse leaves under a group's name -/

section Names

variable {written : String → Prop}

theorem writes_parseInstance_of_names (kind programName orig : String) (i : Nat)
    (state : Config × Section)
    (hit : ∀ group key, (instanceEnv programName i group state.1.getConfigFileDir).eval orig =
      .ok key → written key) :
    Writes written state.1 (parseInstance kind programName orig i state).1 := by
  rw [parseInstance_eq]
  dsimp only
  rcases decided : (instanceWrite kind programName orig i
    (state.1.programGroup.getGroup programName programName).1 state.1.getConfigFileDir state.2).2
    with _ | ⟨key, w⟩
  · exact Writes.of_entries_eq rfl
  · exact Writes.of_entries_set rfl (hit _ key (instanceWrite_eq_some decided).1)

theorem writes_instanceLoop_of_names (kind programName orig here : String)
    (hit : ∀ i group key,
      (instanceEnv programName i group here).eval orig = .ok key → written key) :
    ∀ (remaining i : Nat) (state : Config × Section), state.1.getConfigFileDir = here →
      Writes written state.1 (instanceLoop kind programName orig remaining i state).1
  | 0, _, _, _ => Writes.refl _
  | remaining + 1, i, state, dir =>
      (writes_parseInstance_of_names kind programName orig i state (dir ▸ hit i)).trans
        (writes_instanceLoop_of_names kind programName orig here hit remaining (i + 1) _
          (by rw [getConfigFileDir, configFile_parseInstance, ← dir]; rfl))

/-- A run of `parseProgram` writes only the names its instances evaluate to. -/
theorem writes_foldlM_parseProgramStep_of_names {sections : List Section}
    {state result : Config × List Section}
    (hit : ∀ sec ∈ sections, (isProgramOrEventListener sec).1 = true → ∀ i group key,
      (instanceEnv (programNameOf sec) i group state.1.getConfigFileDir).eval
        (originalProcName sec) = .ok key → written key)
    (run : sections.foldlM parseProgramStep state = .ok result) :
    Writes written state.1 result.1 := by
  refine (foldlM_invariant (fun s : Config × List Section => Writes written state.1 s.1 ∧
    s.1.getConfigFileDir = state.1.getConfigFileDir) ?_ ⟨Writes.refl _, rfl⟩ run).1
  rintro s sec _ mem ⟨writes, dir⟩ stepped
  obtain ⟨parsed, sectionRun, done⟩ := except_bind_eq_ok.mp stepped
  cases done
  refine ⟨writes.trans ?_,
    by rw [getConfigFileDir, configFile_parseProgramSection sectionRun]; exact dir⟩
  by_cases programOrListener : (isProgramOrEventListener sec).1 = true
  · rw [eq_instanceLoop_of_parseProgramSection programOrListener sectionRun]
    exact writes_instanceLoop_of_names _ _ _ _ (hit sec mem programOrListener) _ 1
      (s.1, (sec.key "numprocs").2) dir
  · rw [parseProgramSection_of_not programOrListener] at sectionRun
    cases sectionRun
    exact Writes.refl _

end Names

/-- With no instance named like a group, a parse leaves under every group section's name the
entry its first pass resolved there. -/
theorem lookup_parse_of_group {c c₁ : Config} {cfg : IniFile} (parsed : c.parse cfg = .ok c₁)
    (noGroupInstance : ∀ sec ∈ cfg.sectionList, (isProgramOrEventListener sec).1 = true →
      ∀ i group key, (instanceEnv (programNameOf sec) i group c.getConfigFileDir).eval
        (originalProcName sec) = .ok key → GoStd.hasPrefix key "group:" = false)
    {sec : Section} (mem : sec ∈ cfg.sectionList)
    (group : GoStd.hasPrefix sec.name "group:" = true) :
    c₁.entries.lookup sec.name = some (groupEntry c sec) := by
  obtain ⟨p₁, programRun, done⟩ := except_bind_eq_ok.mp parsed
  cases done
  have first := foldl_parseGroupSection (groupEntry c) cfg.sectionList c
    (IniFile.nodup_sectionList_names cfg) fun _ _ _ => rfl
  have dir : (c.parseGroup cfg).getConfigFileDir = c.getConfigFileDir := by
    rw [getConfigFileDir, configFile_parseGroup]; rfl
  have programs :
      Writes (fun key => GoStd.hasPrefix key "group:" = false) (c.parseGroup cfg) p₁.1 :=
    writes_foldlM_parseProgramStep_of_names (dir ▸ noGroupInstance) programRun
  have others : Writes (fun key => GoStd.hasPrefix key "group:" = false) p₁.1
      (p₁.2.foldl parseOtherSection p₁.1) := by
    refine writes_foldl _ _ (fun c other _ => ?_) _
    unfold parseOtherSection
    split
    · next named =>
        simp only [Bool.and_eq_true, Bool.not_eq_true'] at named
        exact writes_updateEntry _ _ _ _ named.1
    · exact Writes.refl c
  rw [(programs.trans others).frame _ (by simp [group]), parseGroup, first]
  dsimp only
  have nodupKeys : (((cfg.sectionList.filter fun sec => GoStd.hasPrefix sec.name "group:").map
      fun sec => (sec.name, groupEntry c sec)).map Prod.fst).Nodup := by
    simpa [List.map_map] using ((List.filter_sublist cfg.sectionList).map Section.name).nodup
      (IniFile.nodup_sectionList_names cfg)
  have found : ((cfg.sectionList.filter fun sec => GoStd.hasPrefix sec.name "group:").map
      fun sec => (sec.name, groupEntry c sec)).lookup sec.name = some (groupEntry c sec) :=
    (GoMap.lookup_eq_some_iff ⟨_, nodupKeys⟩ _ _).mpr
      (List.mem_map.mpr ⟨sec, List.mem_filter.mpr ⟨mem, group⟩, rfl⟩)
  rw [GoMap.lookup_foldl_set _ nodupKeys, found]
  rfl

/-- The first pass of a second parse finds every group entry and every group mapping the
first parse left, and changes nothing. -/
theorem parseGroup_of_parse {c c₁ : Config} {cfg : IniFile} (parsed : c.parse cfg = .ok c₁)
    (resolved : ∀ sec ∈ cfg.sectionList, GoStd.hasPrefix sec.name "group:" = true →
      c₁.entries.lookup sec.name = some (groupEntry c sec)) :
    c₁.parseGroup cfg = c₁ := by
  have same : ∀ sec ∈ cfg.sectionList, GoStd.hasPrefix sec.name "group:" = true →
      groupEntry c₁ sec = groupEntry c sec := fun sec mem group => by
    rw [groupEntry, createEntry, resolved sec mem group, Option.getD_some, groupEntry,
      ConfigEntry.parse_eq_apply, ConfigEntry.parse_eq_apply, EntryWrite.apply_apply]
  have ahead := defaults_parse parsed
  rw [parseGroup, foldl_parseGroupSection (groupEntry c) cfg.sectionList c
    (IniFile.nodup_sectionList_names cfg) fun _ _ _ => rfl] at ahead
  rw [parseGroup, foldl_parseGroupSection (groupEntry c) cfg.sectionList c₁
    (IniFile.nodup_sectionList_names cfg) same]
  dsimp only at ahead ⊢
  rw [ProcessGroup.Defaults.foldl_set_eq _ ahead, GoMap.foldl_set_of_lookup]
  intro key entry last
  obtain ⟨sec, member, named⟩ :=
    List.mem_map.mp (List.mem_reverse.mp (GoMap.mem_of_lookup_eq_some last))
  obtain ⟨rfl, rfl⟩ := Prod.mk.inj named
  exact resolved sec (List.mem_filter.mp member).1 (List.mem_filter.mp member).2

/-! ### The second parse -/

theorem configFile_parse {c c₁ : Config} {cfg : IniFile} (parsed : c.parse cfg = .ok c₁) :
    c₁.configFile = c.configFile := by
  obtain ⟨p₁, programRun, done⟩ := except_bind_eq_ok.mp parsed
  cases done
  rw [configFile_foldl_parseOtherSection, configFile_foldlM_parseProgramStep programRun,
    configFile_parseGroup]

theorem configFile_load {fs : FileSystem} {c c' : Config} (loaded : c.load fs = .ok c') :
    c'.configFile = c.configFile := by
  obtain ⟨cfg, -, parsed⟩ := except_bind_eq_ok.mp loaded
  exact configFile_parse parsed

theorem eq_of_fields {a b : Config} (file : a.configFile = b.configFile)
    (entries : a.entries = b.entries)
    (groups : a.programGroup = b.programGroup) : a = b := by
  obtain ⟨_, _, _⟩ := a
  obtain ⟨_, _, _⟩ := b
  cases file
  cases entries
  cases groups
  rfl

/-- Parsing a file into the result of parsing it changes nothing, when no instance of the file
is named like a group section. -/
theorem parse_of_parse {c c₁ : Config} {cfg : IniFile} (parsed : c.parse cfg = .ok c₁)
    (noGroupInstance : ∀ sec ∈ cfg.sectionList, (isProgramOrEventListener sec).1 = true →
      ∀ i group key, (instanceEnv (programNameOf sec) i group c.getConfigFileDir).eval
        (originalProcName sec) = .ok key → GoStd.hasPrefix key "group:" = false) :
    c₁.parse cfg = .ok c₁ := by
  have fixed := parseGroup_of_parse parsed fun _ mem group =>
    lookup_parse_of_group parsed noGroupInstance mem group
  have file := configFile_parse parsed
  obtain ⟨p₁, programRun, done⟩ := except_bind_eq_ok.mp parsed
  have ends : p₁.2.foldl parseOtherSection p₁.1 = c₁ := Except.ok.inj done
  have ahead : ProcessGroup.Defaults p₁.1.programGroup c₁.programGroup := by
    rw [← ends, programGroup_foldl_parseOtherSection]
    exact ProcessGroup.Defaults.refl _
  obtain ⟨rb, secondRun, beside, sections⟩ :=
    Beside.parseProgram cfg.sectionList _ (c₁, []) p₁
    programRun rfl ⟨configFile_parseGroup c cfg, file, Tracks.refl _ _ _, rfl⟩ ahead
  have last := Beside.foldl_parseOtherSection p₁.2 beside
  rw [ends] at last
  rw [parse, fixed, parseProgram, secondRun]
  show Except.ok (rb.2.foldl parseOtherSection rb.1) = _
  rw [sections]
  exact congrArg Except.ok (eq_of_fields (last.second.trans last.first.symm)
    last.tracks.eq_of_first last.groups)

theorem readFile_congr {fs : FileSystem} {c c' : Config} (file : c'.configFile = c.configFile) :
    c'.readFile fs = c.readFile fs := by
  obtain ⟨_, _, _⟩ := c
  obtain ⟨_, _, _⟩ := c'
  cases file
  rfl

theorem load_of_load {fs : FileSystem} {c c₁ : Config} {cfg : IniFile}
    (read : c.readFile fs = .ok cfg) (loaded : c.load fs = .ok c₁)
    (noGroupInstance : ∀ sec ∈ cfg.sectionList, (isProgramOrEventListener sec).1 = true →
      ∀ i group key, (instanceEnv (programNameOf sec) i group c.getConfigFileDir).eval
        (originalProcName sec) = .ok key → GoStd.hasPrefix key "group:" = false) :
    c₁.load fs = .ok c₁ := by
  rw [load, read] at loaded
  rw [load, readFile_congr (configFile_parse loaded), read]
  exact parse_of_parse loaded noGroupInstance

/-- Loading a file a second time, into the store the first load left, changes nothing, when no
program or event listener instance of the file is named like a group section. -/
theorem load_load {fs : FileSystem} {c : Config} {cfg : IniFile} (read : c.readFile fs = .ok cfg)
    (noGroupInstance : ∀ sec ∈ cfg.sectionList, (isProgramOrEventListener sec).1 = true →
      ∀ i group key, (instanceEnv (programNameOf sec) i group c.getConfigFileDir).eval
        (originalProcName sec) = .ok key → GoStd.hasPrefix key "group:" = false) :
    (c.load fs >>= load fs) = c.load fs := by
  cases loaded : c.load fs with
  | error => rfl
  | ok c₁ => exact load_of_load read loaded noGroupInstance

/-- Instance names without placeholders are the names themselves, whatever the bindings. -/
theorem noGroupInstance_of_plain (cfg : IniFile) (here : String)
    (plain : ∀ sec ∈ cfg.sectionList, (isProgramOrEventListener sec).1 = true →
      '%' ∉ (originalProcName sec).toList ∧
        GoStd.hasPrefix (originalProcName sec) "group:" = false) :
    ∀ sec ∈ cfg.sectionList, (isProgramOrEventListener sec).1 = true →
      ∀ i group key, (instanceEnv (programNameOf sec) i group here).eval (originalProcName sec) =
        .ok key → GoStd.hasPrefix key "group:" = false :=
  fun sec mem program _ _ _ evaluated => by
    rw [StringExpression.eval_of_no_percent _ _ (plain sec mem program).1] at evaluated
    cases evaluated
    exact (plain sec mem program).2

/-- A group, the program it lists, and a daemon section. -/
theorem load_load_group :
    let fs : FileSystem := ⟨fun _ => .ok (IniFile.ofList [("group:g", [("programs", "web")]),
      ("program:web", [("command", "/bin/web")]), ("supervisord", [("logfile", "/tmp/s.log")])]),
      fun _ => none⟩
    ∃ cfg, (newConfig "/etc/supervisord.conf").readFile fs = .ok cfg ∧
      (∀ sec ∈ cfg.sectionList, (isProgramOrEventListener sec).1 = true →
        ∀ i group key, (instanceEnv (programNameOf sec) i group
          (newConfig "/etc/supervisord.conf").getConfigFileDir).eval (originalProcName sec) =
            .ok key → GoStd.hasPrefix key "group:" = false) ∧
      ((newConfig "/etc/supervisord.conf").load fs >>= load fs) =
        (newConfig "/etc/supervisord.conf").load fs := by
  intro fs
  obtain ⟨cfg, read⟩ : ∃ cfg, (newConfig "/etc/supervisord.conf").readFile fs = .ok cfg :=
    ⟨_, rfl⟩
  have named := noGroupInstance_of_plain cfg (newConfig "/etc/supervisord.conf").getConfigFileDir
    (by cases read; decide)
  exact ⟨cfg, read, named, load_load read named⟩

/-- An instance named like a group section: the first load writes the instance's `programs`
into the group's entry, and the second load's first pass reads them and puts `a` in group `g`. -/
example :
    let fs : FileSystem := ⟨fun _ => .ok (IniFile.ofList [("group:g", [("priority", "1")]),
      ("program:a", [("command", "/bin/a"), ("process_name", "group:g"), ("programs", "a")])]),
      fun _ => none⟩
    ((newConfig "/etc/supervisord.conf").load fs).map (·.programGroup.processGroup.lookup "a") =
        .ok (some "a") ∧
      ((newConfig "/etc/supervisord.conf").load fs >>= load fs).map
        (·.programGroup.processGroup.lookup "a") = .ok (some "g") :=
  ⟨rfl, rfl⟩

end Config

end Supervisord

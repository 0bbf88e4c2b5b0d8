import Supervisord.GoMap

/-!
# The program-to-group index

`ProcessGroup` maps each program name to the name of its group. The loader
fills it from the `group:` sections and the supervisor compares two of them
with `Sub`, which yields the groups added, changed and removed between two
configurations.

`Sub` rests on two helpers of a `util` package that is not among the sources:
`util.Sub` and `util.IsSameStringArray`. Both are modelled from the spec (§3):
the diff takes the groups present in one index and absent from the other, and
compares member lists as unordered sets. For `util.Sub` we use the `sub` of
`supervisor.go`, which the daemon uses for the same difference on program
names.

`GetAllGroup` collects the groups through a second Go map, so the order of its
result is the enumeration order of that map, which Go does not fix.
`ProcessGroup.subWith` takes the two enumerations as arguments, and the main
result, `subWith_spec`, holds for every enumeration of both indexes: each of
the three lists is described by membership in the two indexes alone.
-/

namespace Supervisord

/-- `sub` of `supervisor.go`: the strings of `arr1` that do not occur in `arr2`. -/
def sub (arr1 arr2 : List String) : List String :=
  arr1.foldl
    (fun result s =>
      let exist := arr2.foldl (fun exist s2 => exist || s = s2) false
      if !exist then result ++ [s] else result)
    []

/--
Modelled from the spec: `util.Sub` is not among the sources; it is the
difference of two group lists, as `sub` computes it.
-/
def utilSub (arr1 arr2 : List String) : List String := sub arr1 arr2

/--
Modelled from the spec: `util.IsSameStringArray` is not among the sources; the
spec compares member lists "as unordered sets of program names".
-/
def isSameStringArray (arr1 arr2 : List String) : Bool :=
  arr1.all (arr2.contains ·) && arr2.all (arr1.contains ·)

/-- The inner loop of `sub` sets `exist` exactly when `s` occurs. -/
theorem foldl_or_eq_mem (s : String) (arr : List String) (start : Bool) :
    arr.foldl (fun exist s2 => exist || s = s2) start = (start || decide (s ∈ arr)) := by
  induction arr generalizing start with
  | nil => simp
  | cons s2 rest ih => simp [ih, Bool.or_assoc]

/-- The outer loop of `sub`, from any accumulator, appends the strings of `arr1` that do
not occur in `arr2`. -/
theorem foldl_sub_step (arr1 arr2 acc : List String) :
    arr1.foldl
        (fun result s =>
          let exist := arr2.foldl (fun exist s2 => exist || s = s2) false
          if !exist then result ++ [s] else result)
        acc =
      acc ++ arr1.filter (· ∉ arr2) := by
  induction arr1 generalizing acc with
  | nil => simp
  | cons s rest ih =>
      rw [List.foldl_cons, ih]
      by_cases present : s ∈ arr2 <;> simp [present, foldl_or_eq_mem, List.filter_cons]

theorem sub_eq_filter (arr1 arr2 : List String) : sub arr1 arr2 = arr1.filter (· ∉ arr2) :=
  (foldl_sub_step arr1 arr2 []).trans (List.nil_append _)

theorem mem_sub (arr1 arr2 : List String) (s : String) :
    s ∈ sub arr1 arr2 ↔ s ∈ arr1 ∧ s ∉ arr2 := by
  rw [sub, foldl_sub_step]
  simp

theorem nodup_sub {arr1 : List String} (arr2 : List String) (nodup : arr1.Nodup) :
    (sub arr1 arr2).Nodup := by
  rw [sub, foldl_sub_step, List.nil_append]
  exact nodup.filter _

theorem isSameStringArray_iff (arr1 arr2 : List String) :
    isSameStringArray arr1 arr2 = true ↔ ∀ s, s ∈ arr1 ↔ s ∈ arr2 := by
  simp only [isSameStringArray, Bool.and_eq_true, List.all_eq_true, List.elem_iff,
    List.contains]
  exact ⟨fun both s => ⟨both.1 s, both.2 s⟩, fun same => ⟨fun s => (same s).1, fun s => (same s).2⟩⟩

/-- The program-to-group index: program name ↦ group name. -/
structure ProcessGroup where
  processGroup : GoMap String

/-- `NewProcessGroup`. -/
def newProcessGroup : ProcessGroup := ⟨GoMap.empty⟩

namespace ProcessGroup

/-- `Add`: put `procName` in `group`. -/
def add (pg : ProcessGroup) (group procName : String) : ProcessGroup :=
  ⟨pg.processGroup.set procName group⟩

/-- `Remove`. -/
def remove (pg : ProcessGroup) (procName : String) : ProcessGroup :=
  ⟨pg.processGroup.delete procName⟩

/-- `Clone`: every entry copied into a new map. -/
def clone (pg : ProcessGroup) : ProcessGroup :=
  ⟨pg.processGroup.entries.foldl (fun m entry => m.set entry.1 entry.2) GoMap.empty⟩

/-- `GetAllGroup`: the groups, de-duplicated through a map of their own. -/
def getAllGroup (pg : ProcessGroup) : List String :=
  (pg.processGroup.entries.foldl (fun groups entry => groups.set entry.2 true) GoMap.empty).keys

/-- `GetAllProcess`: the programs of one group, in enumeration order. -/
def getAllProcess (pg : ProcessGroup) (group : String) : List String :=
  pg.processGroup.entries.filterMap fun entry =>
    if group = entry.2 then some entry.1 else none

/-- `InGroup`. -/
def inGroup (pg : ProcessGroup) (procName group : String) : Bool :=
  match pg.processGroup.lookup procName with
  | some groupName => group = groupName
  | none => false

/-- `GetGroup`: the group of `procName`; an absent program is first put in `defGroup`. -/
def getGroup (pg : ProcessGroup) (procName defGroup : String) : String × ProcessGroup :=
  match pg.processGroup.lookup procName with
  | some group => (group, pg)
  | none => (defGroup, ⟨pg.processGroup.set procName defGroup⟩)

/-- The body of `Sub`, given the enumerations `thisGroup` and `otherGroup` that the
two calls of `GetAllGroup` produced. -/
def subWith (pg other : ProcessGroup) (thisGroup otherGroup : List String) :
    List String × List String × List String :=
  let added := utilSub thisGroup otherGroup
  let removed := utilSub otherGroup thisGroup
  let changed := thisGroup.foldl
    (fun changed group =>
      let proc1 := pg.getAllProcess group
      let proc2 := other.getAllProcess group
      if 0 < proc2.length && !isSameStringArray proc1 proc2 then changed ++ [group] else changed)
    []
  (added, changed, removed)

/-- `Sub`: the groups added, changed and removed going from `other` to `pg`. -/
def sub (pg other : ProcessGroup) : List String × List String × List String :=
  pg.subWith other pg.getAllGroup other.getAllGroup

@[simp] theorem lookup_add (pg : ProcessGroup) (group procName other : String) :
    (pg.add group procName).processGroup.lookup other =
      if other = procName then some group else pg.processGroup.lookup other :=
  GoMap.lookup_set _ _ _ _

theorem lookup_foldl_add (pg : ProcessGroup) (group : String) (programs : List String)
    (procName : String) :
    (programs.foldl (fun pg program => pg.add group program) pg).processGroup.lookup procName =
      if procName ∈ programs then some group else pg.processGroup.lookup procName := by
  induction programs generalizing pg with
  | nil => simp
  | cons program rest ih =>
      rw [List.foldl_cons, ih]
      by_cases later : procName ∈ rest <;> by_cases hit : procName = program <;> simp [later, hit]

@[simp] theorem fst_getGroup (pg : ProcessGroup) (procName defGroup : String) :
    (pg.getGroup procName defGroup).1 = (pg.processGroup.lookup procName).getD defGroup := by
  unfold getGroup
  split <;> simp_all

/-- After `GetGroup` the program is in the group `GetGroup` returned. -/
@[simp] theorem lookup_getGroup (pg : ProcessGroup) (procName defGroup other : String) :
    (pg.getGroup procName defGroup).2.processGroup.lookup other =
      if other = procName then some ((pg.processGroup.lookup procName).getD defGroup)
      else pg.processGroup.lookup other := by
  unfold getGroup
  split
  · next found =>
      by_cases hit : other = procName
      · simp [hit, found]
      · simp [hit]
  · next absent => simp [absent]

/-- A second `GetGroup` of the same program finds it and changes nothing. -/
theorem getGroup_getGroup (pg : ProcessGroup) (procName defGroup other : String) :
    (pg.getGroup procName defGroup).2.getGroup procName other = pg.getGroup procName defGroup := by
  cases found : pg.processGroup.lookup procName <;> simp [getGroup, found]

/-! ### The index as a relation -/

/-- Some program is in `group`. -/
def HasGroup (pg : ProcessGroup) (group : String) : Prop :=
  ∃ procName, pg.processGroup.lookup procName = some group

/-- `group` has the same members in both indexes. -/
def SameMembers (pg other : ProcessGroup) (group : String) : Prop :=
  ∀ procName, pg.inGroup procName group = other.inGroup procName group

theorem inGroup_iff (pg : ProcessGroup) (procName group : String) :
    pg.inGroup procName group = true ↔ pg.processGroup.lookup procName = some group := by
  unfold inGroup
  cases pg.processGroup.lookup procName <;> simp [eq_comm]

theorem hasGroup_iff_mem (pg : ProcessGroup) (group : String) :
    pg.HasGroup group ↔ group ∈ pg.processGroup.entries.map Prod.snd := by
  simp only [HasGroup, GoMap.lookup_eq_some_iff, List.mem_map]
  constructor
  · rintro ⟨procName, mem⟩
    exact ⟨_, mem, rfl⟩
  · rintro ⟨⟨procName, _⟩, mem, rfl⟩
    exact ⟨procName, mem⟩

theorem mem_keys_foldl_set (entries : List (String × String)) (groups : GoMap Bool)
    (group : String) :
    group ∈ (entries.foldl (fun groups entry => groups.set entry.2 true) groups).keys ↔
      group ∈ groups.keys ∨ group ∈ entries.map Prod.snd := by
  induction entries generalizing groups with
  | nil => simp
  | cons entry rest ih =>
      rw [List.foldl_cons, ih, GoMap.keys_set, List.map_cons, List.mem_cons]
      by_cases present : entry.2 ∈ groups.keys
      · simp only [present, if_true]
        constructor
        · rintro (mem | mem)
          · exact .inl mem
          · exact .inr (.inr mem)
        · rintro (mem | rfl | mem)
          · exact .inl mem
          · exact .inl present
          · exact .inr mem
      · simp only [present, if_false, List.mem_append, List.mem_singleton, or_assoc]

theorem mem_getAllGroup (pg : ProcessGroup) (group : String) :
    group ∈ pg.getAllGroup ↔ pg.HasGroup group := by
  simp [getAllGroup, mem_keys_foldl_set, hasGroup_iff_mem]

theorem nodup_getAllGroup (pg : ProcessGroup) : pg.getAllGroup.Nodup :=
  GoMap.nodupKeys _

theorem mem_getAllProcess (pg : ProcessGroup) (group procName : String) :
    procName ∈ pg.getAllProcess group ↔ pg.inGroup procName group = true := by
  rw [inGroup_iff, GoMap.lookup_eq_some_iff]
  simp only [getAllProcess, List.mem_filterMap, Option.ite_none_right_eq_some, Option.some.injEq]
  constructor
  · rintro ⟨⟨p, g⟩, mem, rfl, rfl⟩
    exact mem
  · intro mem
    exact ⟨_, mem, rfl, rfl⟩

theorem getAllProcess_ne_nil_iff (pg : ProcessGroup) (group : String) :
    pg.getAllProcess group ≠ [] ↔ pg.HasGroup group := by
  simp only [ne_eq, List.eq_nil_iff_forall_not_mem, not_forall, not_not, mem_getAllProcess,
    inGroup_iff, HasGroup]

theorem foldl_changed_eq_filter (step : String → Bool) (groups acc : List String) :
    groups.foldl (fun changed group => if step group then changed ++ [group] else changed) acc =
      acc ++ groups.filter step := by
  induction groups generalizing acc with
  | nil => simp
  | cons group rest ih => by_cases keep : step group <;> simp [ih, keep, List.filter_cons]

/-! ### The three lists of `Sub` -/

/-- What `Sub` promises: each list described by the two indexes, without
repetitions, and no group in two lists. -/
structure SubSpec (pg other : ProcessGroup)
    (result : List String × List String × List String) : Prop where
  mem_added : ∀ g, g ∈ result.1 ↔ pg.HasGroup g ∧ ¬other.HasGroup g
  mem_changed : ∀ g, g ∈ result.2.1 ↔ pg.HasGroup g ∧ other.HasGroup g ∧ ¬pg.SameMembers other g
  mem_removed : ∀ g, g ∈ result.2.2 ↔ other.HasGroup g ∧ ¬pg.HasGroup g
  nodup_added : result.1.Nodup
  nodup_changed : result.2.1.Nodup
  nodup_removed : result.2.2.Nodup
  disjoint_added_changed : ∀ g, g ∈ result.1 → g ∉ result.2.1
  disjoint_added_removed : ∀ g, g ∈ result.1 → g ∉ result.2.2
  disjoint_changed_removed : ∀ g, g ∈ result.2.1 → g ∉ result.2.2

theorem changed_step_iff (pg other : ProcessGroup) (group : String) :
    (0 < (other.getAllProcess group).length &&
        !isSameStringArray (pg.getAllProcess group) (other.getAllProcess group)) = true ↔
      other.HasGroup group ∧ ¬pg.SameMembers other group := by
  rw [← getAllProcess_ne_nil_iff, ← List.length_pos]
  simp only [Bool.and_eq_true, decide_eq_true_eq, Bool.not_eq_true', Bool.eq_false_iff, ne_eq,
    isSameStringArray_iff, mem_getAllProcess, SameMembers]
  constructor
  · rintro ⟨nonempty, differ⟩
    exact ⟨nonempty, fun same => differ fun p => by rw [same p]⟩
  · rintro ⟨nonempty, differ⟩
    refine ⟨nonempty, fun same => differ fun p => ?_⟩
    cases h : pg.inGroup p group <;> cases h' : other.inGroup p group <;> simp_all

theorem subWith_spec (pg other : ProcessGroup) (thisGroup otherGroup : List String)
    (thisEnum : thisGroup.Perm pg.getAllGroup) (otherEnum : otherGroup.Perm other.getAllGroup) :
    SubSpec pg other (pg.subWith other thisGroup otherGroup) := by
  have memThis : ∀ g, g ∈ thisGroup ↔ pg.HasGroup g := fun g =>
    thisEnum.mem_iff.trans (mem_getAllGroup pg g)
  have memOther : ∀ g, g ∈ otherGroup ↔ other.HasGroup g := fun g =>
    otherEnum.mem_iff.trans (mem_getAllGroup other g)
  have nodupThis : thisGroup.Nodup := thisEnum.nodup_iff.mpr (nodup_getAllGroup pg)
  have nodupOther : otherGroup.Nodup := otherEnum.nodup_iff.mpr (nodup_getAllGroup other)
  have memChanged : ∀ g, g ∈ (pg.subWith other thisGroup otherGroup).2.1 ↔
      pg.HasGroup g ∧ other.HasGroup g ∧ ¬pg.SameMembers other g := by
    intro g
    simp only [subWith, foldl_changed_eq_filter, List.nil_append, List.mem_filter, memThis,
      changed_step_iff]
  have memAdded : ∀ g, g ∈ (pg.subWith other thisGroup otherGroup).1 ↔
      pg.HasGroup g ∧ ¬other.HasGroup g := fun g => by
    simp [subWith, utilSub, mem_sub, memThis, memOther]
  have memRemoved : ∀ g, g ∈ (pg.subWith other thisGroup otherGroup).2.2 ↔
      other.HasGroup g ∧ ¬pg.HasGroup g := fun g => by
    simp [subWith, utilSub, mem_sub, memThis, memOther]
  refine ⟨memAdded, memChanged, memRemoved, nodup_sub _ nodupThis, ?_, nodup_sub _ nodupOther,
    fun g added changed => ((memAdded g).mp added).2 ((memChanged g).mp changed).2.1,
    fun g added removed => ((memRemoved g).mp removed).2 ((memAdded g).mp added).1,
    fun g changed removed => ((memRemoved g).mp removed).2 ((memChanged g).mp changed).1⟩
  simp only [subWith, foldl_changed_eq_filter, List.nil_append]
  exact nodupThis.filter _

/-- Two indexes that differ in every way `Sub` distinguishes: `g3` is new, `g2`
changed its members and `g4` is gone. -/
theorem subWith_spec_example :
    SubSpec ((((newProcessGroup.add "g1" "a").add "g2" "b").add "g3" "x"))
      (((newProcessGroup.add "g1" "a").add "g2" "c").add "g4" "y")
      ((((newProcessGroup.add "g1" "a").add "g2" "b").add "g3" "x").sub
        (((newProcessGroup.add "g1" "a").add "g2" "c").add "g4" "y")) :=
  subWith_spec _ _ _ _ (List.Perm.refl _) (List.Perm.refl _)

/-! ### The queries of an index -/

/-- What the queries of an index report: `GetAllGroup` lists each group with a member
once, `GetAllProcess` lists each member of a group once, the member lists of two groups
are disjoint and together cover the index, and `GetGroup` returns a group the program
is then in, changing nothing when the program was already there. -/
structure ConsistentQueries (pg : ProcessGroup) : Prop where
  groups_listed : ∀ group, group ∈ pg.getAllGroup ↔ ∃ procName, pg.inGroup procName group = true
  groups_nodup : pg.getAllGroup.Nodup
  members_listed : ∀ group procName,
    procName ∈ pg.getAllProcess group ↔ pg.inGroup procName group = true
  members_nodup : ∀ group, (pg.getAllProcess group).Nodup
  members_disjoint : ∀ group group', group ≠ group' → ∀ procName,
    procName ∈ pg.getAllProcess group → procName ∉ pg.getAllProcess group'
  members_cover : ∀ procName, (pg.processGroup.lookup procName).isSome →
    ∃ group ∈ pg.getAllGroup, procName ∈ pg.getAllProcess group
  getGroup_member : ∀ procName defGroup,
    (pg.getGroup procName defGroup).2.inGroup procName (pg.getGroup procName defGroup).1 = true
  getGroup_unchanged : ∀ procName defGroup, (pg.processGroup.lookup procName).isSome →
    (pg.getGroup procName defGroup).2 = pg

theorem getAllProcess_sublist_keys (pg : ProcessGroup) (group : String) :
    (pg.getAllProcess group).Sublist pg.processGroup.keys := by
  unfold getAllProcess GoMap.keys
  induction pg.processGroup.entries with
  | nil => exact List.Sublist.slnil
  | cons entry rest ih =>
      rw [List.filterMap_cons, List.map_cons]
      split
      · exact ih.cons _
      · next listed =>
          split at listed
          · cases listed
            exact ih.cons₂ _
          · cases listed

/-- Every index answers its queries consistently: the map's distinct keys are all it
takes, so this holds of every index `Add`, `Remove`, `GetGroup` and `Clone` can build. -/
theorem consistentQueries (pg : ProcessGroup) : ConsistentQueries pg where
  groups_listed group := by simp only [mem_getAllGroup, HasGroup, inGroup_iff]
  groups_nodup := nodup_getAllGroup pg
  members_listed := mem_getAllProcess pg
  members_nodup group := (getAllProcess_sublist_keys pg group).nodup pg.processGroup.nodupKeys
  members_disjoint group group' differ procName member member' := by
    rw [mem_getAllProcess, inGroup_iff] at member member'
    exact differ (Option.some.inj (member.symm.trans member'))
  members_cover procName mapped := by
    obtain ⟨group, found⟩ := Option.isSome_iff_exists.mp mapped
    exact ⟨group, (mem_getAllGroup pg group).mpr ⟨procName, found⟩,
      (mem_getAllProcess pg group procName).mpr ((inGroup_iff pg procName group).mpr found)⟩
  getGroup_member procName defGroup := by simp [inGroup_iff]
  getGroup_unchanged procName defGroup mapped := by
    obtain ⟨group, found⟩ := Option.isSome_iff_exists.mp mapped
    simp [getGroup, found]

end ProcessGroup

end Supervisord

import Supervisord.GoMap
import Supervisord.GoStd

/-!
# Parsed ini files

The loader reads its configuration through the go-ini library. Parsing the ini
text is outside the model: a loaded file is the list of its sections in file
order, each with its keys in file order. go-ini keeps one section per name and
one key per name in a section, merging repeated ones, so both levels are Go
maps.

The parts of the go-ini API that the loader calls are modelled here.
`Section.key` creates an absent key with an empty value, as go-ini's `Key`
does; `parseProgram` relies on that for `numprocs` and `command`. `append`
merges a further file: a section already present takes the new values of its
keys, and a new section goes last. Section inheritance through dotted names and
the value interpolation of go-ini's `String` are not modelled.
-/

namespace Supervisord

/-- A go-ini section. -/
structure Section where
  name : String
  keys : GoMap String

namespace Section

/-- `section.GetKey(name)`: the value, or an error when the key is absent. -/
def getKey (sec : Section) (name : String) : Option String := sec.keys.lookup name

/-- `section.Key(name).Value()`: the value, creating the key empty when absent. -/
def key (sec : Section) (name : String) : String × Section :=
  match sec.keys.lookup name with
  | some value => (value, sec)
  | none => ("", { sec with keys := sec.keys.set name "" })

/-- `section.NewKey(name, value)`. -/
def newKey (sec : Section) (name value : String) : Section :=
  { sec with keys := sec.keys.set name value }

theorem fst_key (sec : Section) (name : String) : (sec.key name).1 = (sec.getKey name).getD "" := by
  unfold key getKey
  split <;> simp_all

@[simp] theorem name_key (sec : Section) (name : String) : (sec.key name).2.name = sec.name := by
  unfold key
  split <;> rfl

@[simp] theorem name_newKey (sec : Section) (name value : String) :
    (sec.newKey name value).name = sec.name := rfl

theorem lookup_key (sec : Section) (name other : String) :
    (sec.key name).2.keys.lookup other =
      if other = name then some (sec.key name).1 else sec.keys.lookup other := by
  unfold key
  split
  · next value found =>
      by_cases hit : other = name
      · simp [hit, found]
      · simp [hit]
  · simp

theorem getKey_key_of_ne (sec : Section) {name other : String} (ne : other ≠ name) :
    (sec.key name).2.getKey other = sec.getKey other := by
  simp only [getKey, lookup_key, ne, if_false]

end Section

/-- A go-ini file: its sections, keyed by name, in file order. go-ini opens every file
with its `DEFAULT` section, which holds the keys written before the first section header,
so a loaded file always lists it first. -/
structure IniFile where
  sections : GoMap (GoMap String)
  default_first : sections.keys.head? = some "DEFAULT"

namespace IniFile

/-- A file from the sections written in it, each with its key/value pairs: the `DEFAULT`
section, empty, and then the written sections. -/
def ofList (sections : List (String × List (String × String))) : IniFile where
  sections := GoMap.ofList ((("DEFAULT", []) :: sections).map fun sec => (sec.1, GoMap.ofList sec.2))
  default_first := by
    rw [GoMap.ofList, List.map_cons, List.foldl_cons]
    exact List.foldlRecOn (motive := fun m : GoMap (GoMap String) => m.keys.head? = some "DEFAULT")
      _ _ _ rfl fun m head pair _ => GoMap.head?_keys_set m pair.1 pair.2 head

/-- `cfg.Sections()`. -/
def sectionList (cfg : IniFile) : List Section :=
  cfg.sections.entries.map fun entry => ⟨entry.1, entry.2⟩

/-- go-ini keeps one section per name. -/
theorem nodup_sectionList_names (cfg : IniFile) : (cfg.sectionList.map Section.name).Nodup := by
  simpa [sectionList, Function.comp_def] using cfg.sections.nodupKeys

/-- `cfg.GetSection(name)`. -/
def getSection (cfg : IniFile) (name : String) : Option Section :=
  (cfg.sections.lookup name).map (⟨name, ·⟩)

/-- The keys of `other` written over `base`, as parsing a further source does. -/
def mergeKeys (base other : GoMap String) : GoMap String :=
  other.entries.foldl (fun keys entry => keys.set entry.1 entry.2) base

/-- `cfg.Append(other)`: the sections of `other` merged into `cfg`. -/
def append (cfg other : IniFile) : IniFile where
  sections := other.sections.entries.foldl
    (fun acc entry => acc.set entry.1 (mergeKeys ((acc.lookup entry.1).getD GoMap.empty) entry.2))
    cfg.sections
  default_first :=
    List.foldlRecOn (motive := fun m : GoMap (GoMap String) => m.keys.head? = some "DEFAULT")
      _ _ _ cfg.default_first fun m head entry _ => GoMap.head?_keys_set m entry.1 _ head

/-- The value of a key of a section, when the file has both. -/
def value (cfg : IniFile) (sec key : String) : Option String :=
  (cfg.sections.lookup sec).bind (·.lookup key)

end IniFile

end Supervisord

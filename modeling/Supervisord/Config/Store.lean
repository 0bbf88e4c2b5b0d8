import Supervisord.Config.Entry
import Supervisord.ProcessGroup

/-!
# The configuration store

`Config` owns the configuration entries, keyed by section name, and the
program-to-group index. An entry is a pointer in the source: `createEntry`
returns the entry under a key, adding a fresh one when the key is absent, and
the caller then mutates it in place. We model the pair as `updateEntry`, which
writes the mutated entry back under the same key. No entry is ever stored
under two keys, so two sections share an entry exactly when they resolve to
the same key.

The queries enumerate the entries map, whose order Go does not fix.
`GetPrograms` also passes the entries through `sortProgram`, which is not among
the sources; it is a parameter of every definition that calls it.
-/

namespace Supervisord

/-- What the loader reads from the file system: `ini.Load` of a path, and the
names listed by `ioutil.ReadDir` of a directory. -/
structure FileSystem where
  loadIni : String → Except String IniFile
  readDir : String → Option (List String)

/-- `Config`. -/
structure Config where
  configFile : String
  entries : GoMap ConfigEntry
  programGroup : ProcessGroup

/-- `NewConfig`. -/
def newConfig (configFile : String) : Config := ⟨configFile, GoMap.empty, newProcessGroup⟩

namespace Config

/-- `GetConfigFileDir`. -/
def getConfigFileDir (c : Config) : String := GoStd.dir c.configFile

/-- `createEntry`: the entry under `name`, or a fresh one. -/
def createEntry (c : Config) (name configDir : String) : ConfigEntry :=
  (c.entries.lookup name).getD (newConfigEntry configDir)

/-- `createEntry` followed by the caller's in-place mutation `f` of the entry. -/
def updateEntry (c : Config) (name configDir : String) (f : ConfigEntry → ConfigEntry) : Config :=
  { c with entries := c.entries.set name (f (c.createEntry name configDir)) }

/-- `GetEntries`: the entries passing `filterFunc`, in enumeration order. -/
def getEntries (c : Config) (filterFunc : ConfigEntry → Bool) : List ConfigEntry :=
  (c.entries.entries.map Prod.snd).filter filterFunc

/-- `GetGroups`. -/
def getGroups (c : Config) : List ConfigEntry := c.getEntries ConfigEntry.isGroup

/-- `GetPrograms`. -/
def getPrograms (sortProgram : List ConfigEntry → List ConfigEntry) (c : Config) :
    List ConfigEntry :=
  sortProgram (c.getEntries ConfigEntry.isProgram)

/-- `GetEventListeners`. -/
def getEventListeners (c : Config) : List ConfigEntry := c.getEntries ConfigEntry.isEventListener

/-- `GetProgramNames`: the program names, the programs sorted a second time. -/
def getProgramNames (sortProgram : List ConfigEntry → List ConfigEntry) (c : Config) :
    List String :=
  (sortProgram (c.getPrograms sortProgram)).map ConfigEntry.getProgramName

/-- `GetProgram`: the first program entry of that name, in enumeration order. -/
def getProgram (c : Config) (name : String) : Option ConfigEntry :=
  (c.entries.entries.map Prod.snd).find? fun entry => entry.isProgram && entry.getProgramName = name

/-- `GetSupervisord`. -/
def getSupervisord (c : Config) : Option ConfigEntry := c.entries.lookup "supervisord"

/-- `GetInetHttpServer`. -/
def getInetHttpServer (c : Config) : Option ConfigEntry := c.entries.lookup "inet_http_server"

/-- `GetUnixHttpServer`. -/
def getUnixHttpServer (c : Config) : Option ConfigEntry := c.entries.lookup "unix_http_server"

@[simp] theorem configFile_updateEntry (c : Config) (name configDir : String)
    (f : ConfigEntry → ConfigEntry) : (c.updateEntry name configDir f).configFile = c.configFile :=
  rfl

@[simp] theorem programGroup_updateEntry (c : Config) (name configDir : String)
    (f : ConfigEntry → ConfigEntry) :
    (c.updateEntry name configDir f).programGroup = c.programGroup := rfl

theorem mem_getEntries (c : Config) (filterFunc : ConfigEntry → Bool) (entry : ConfigEntry) :
    entry ∈ c.getEntries filterFunc ↔
      (∃ key, c.entries.lookup key = some entry) ∧ filterFunc entry = true := by
  simp only [getEntries, List.mem_filter, List.mem_map, GoMap.lookup_eq_some_iff]
  constructor
  · rintro ⟨⟨⟨key, e⟩, mem, rfl⟩, pass⟩
    exact ⟨⟨key, mem⟩, pass⟩
  · rintro ⟨⟨key, mem⟩, pass⟩
    exact ⟨⟨_, mem, rfl⟩, pass⟩

/-! ### What an update writes -/

/-- `c'` agrees with `c` under every key outside `written`, and keeps every key of `c`. -/
structure Writes (written : String → Prop) (c c' : Config) : Prop where
  frame : ∀ key, ¬ written key → c'.entries.lookup key = c.entries.lookup key
  keeps : ∀ key, (c.entries.lookup key).isSome → (c'.entries.lookup key).isSome

namespace Writes

variable {written : String → Prop} {c c' c'' : Config}

theorem refl (c : Config) : Writes written c c := ⟨fun _ _ => rfl, fun _ => id⟩

theorem trans (first : Writes written c c') (second : Writes written c' c'') :
    Writes written c c'' :=
  ⟨fun key out => (second.frame key out).trans (first.frame key out),
    fun key present => second.keeps key (first.keeps key present)⟩

theorem mono {wider : String → Prop} (writes : Writes written c c')
    (within : ∀ key, written key → wider key) : Writes wider c c' :=
  ⟨fun key out => writes.frame key fun hit => out (within key hit), writes.keeps⟩

theorem of_entries_eq (same : c'.entries = c.entries) : Writes written c c' :=
  ⟨fun _ _ => by rw [same], fun _ => by rw [same]; exact id⟩

theorem of_entries_set {name : String} {entry : ConfigEntry}
    (set : c'.entries = c.entries.set name entry) (hit : written name) : Writes written c c' where
  frame key out := by
    rw [set, GoMap.lookup_set_of_ne]
    rintro rfl
    exact out hit
  keeps key _ := by
    rw [set, GoMap.lookup_set]
    split <;> simp_all

end Writes

theorem writes_updateEntry (c : Config) (name configDir : String) (f : ConfigEntry → ConfigEntry)
    {written : String → Prop} (hit : written name) : Writes written c (c.updateEntry name configDir f) :=
  Writes.of_entries_set rfl hit

end Config

end Supervisord

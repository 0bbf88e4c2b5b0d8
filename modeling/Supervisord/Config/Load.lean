import Supervisord.Config.Parse
import Supervisord.Regexp

/-!
# Loading the configuration

`Config.Load` reads the root file, appends every file named by the `files` key
of its `include` section, and parses the result into the store. The include
patterns are whitespace-separated; each is evaluated with `%(here)s` bound, its
directory is listed, and every listed name that `regexp.MatchString` accepts
for `toRegexp` of the pattern's base name is included.

`Load` parses into the store it is called on: entries are looked up with
`createEntry` and reused, and the group index keeps its mappings. Nothing the
file no longer declares is removed; `writes_load` states this for every
load.
-/

namespace Supervisord

/-- `toRegexp`: each `*` of a file pattern becomes `.*`, each `?` becomes `.`, and
each `.` is escaped. -/
def toRegexp (pattern : String) : String :=
  GoStd.join ((GoStd.split pattern '.').map fun t =>
    GoStd.replaceAll (GoStd.replaceAll t '*' ".*") '?' ".") "\\."

/-- Shell-wildcard matching of a whole name, the reading of a file pattern that
`toRegexp` stands for: `*` matches any string, `?` any one character, and every other
character itself. -/
def wildcardMatch : List Char → List Char → Bool
  | [], name => name.isEmpty
  | '*' :: pattern, name => name.tails.any (wildcardMatch pattern)
  | '?' :: pattern, name =>
      match name with
      | [] => false
      | _ :: rest => wildcardMatch pattern rest
  | c :: pattern, name =>
      match name with
      | [] => false
      | d :: rest => c = d && wildcardMatch pattern rest

/-- `*.conf` becomes `.*\.conf`, which `MatchString` finds inside `x.conf.bak`: the
expression is not anchored, and the name does not match the pattern as a whole. -/
theorem toRegexp_matches_inside_name :
    Regexp.matchString (toRegexp "*.conf") "x.conf.bak" = some true ∧
      wildcardMatch "*.conf".toList "x.conf.bak".toList = false := by
  decide

namespace Config

/-- The files one include pattern names. -/
def includeFilesOf (fs : FileSystem) (c : Config) (fRaw : String) : List String :=
  match (StringExpression.mk [("here", c.getConfigFileDir)]).eval fRaw with
  | .error _ => []
  | .ok f =>
      let dir := if GoStd.isAbs f then GoStd.dir f else c.getConfigFileDir
      match fs.readDir dir with
      | none => []
      | some fileInfos =>
          let goPattern := toRegexp (GoStd.base f)
          (fileInfos.filter fun name => Regexp.matchString goPattern name = some true).map
            (GoStd.joinPath dir)

/-- `getIncludeFiles`. -/
def getIncludeFiles (fs : FileSystem) (c : Config) (cfg : IniFile) : List String :=
  match cfg.getSection "include" with
  | none => []
  | some includeSection =>
      match includeSection.getKey "files" with
      | none => []
      | some files => (GoStd.fields files).flatMap (c.includeFilesOf fs)

/-- The file `Load` parses: the root file with every include file appended. -/
def readFile (fs : FileSystem) (c : Config) : Except Failure IniFile := do
  let cfg ← (fs.loadIni c.configFile).mapError .error
  (c.getIncludeFiles fs cfg).foldlM
    (fun cfg f => do
      let other ← (fs.loadIni f).mapError .error
      pure (cfg.append other))
    cfg

/-- `Config.Load`. -/
def load (fs : FileSystem) (c : Config) : Except Failure Config := do
  let cfg ← c.readFile fs
  c.parse cfg

/-- The store `Load` leaves, whether it returns or panics: unchanged when reading the files
fails, the parsed store when `parse` ends, and when `parse` panics, the store as `parseGroup`
and the program sections before the panicking one wrote it: the panic unwinds `Load` and
leaves those writes in place. -/
def storeAfterLoad (fs : FileSystem) (c : Config) : Config :=
  match c.readFile fs with
  | .error _ => c
  | .ok cfg =>
      match c.parse cfg with
      | .ok c' => c'
      | .error _ => parseProgramUntilPanic cfg.sectionList (c.parseGroup cfg, [])

theorem storeAfterLoad_of_load {fs : FileSystem} {c c' : Config} (loaded : c.load fs = .ok c') :
    c.storeAfterLoad fs = c' := by
  obtain ⟨cfg, read, parsed⟩ := except_bind_eq_ok.mp loaded
  unfold storeAfterLoad
  rw [read]
  dsimp only
  rw [parsed]

/-- A load leaves the store unchanged, or loaded, or, when it panics, as `parseGroup` and
then `parseProgram` over a prefix of the file's sections left it. -/
theorem storeAfterLoad_cases (fs : FileSystem) (c : Config) :
    c.storeAfterLoad fs = c ∨ (∃ c', c.load fs = .ok c' ∧ c.storeAfterLoad fs = c') ∨
      ∃ cfg pre result, c.readFile fs = .ok cfg ∧ pre <+: cfg.sectionList ∧
        pre.foldlM parseProgramStep (c.parseGroup cfg, []) = .ok result ∧
        c.storeAfterLoad fs = result.1 := by
  unfold storeAfterLoad
  cases read : c.readFile fs with
  | error => exact .inl rfl
  | ok cfg =>
      dsimp only
      cases parsed : c.parse cfg with
      | ok c' => exact .inr (.inl ⟨c', by rw [load, read]; exact parsed, rfl⟩)
      | error =>
          obtain ⟨pre, result, isPrefix, run, same⟩ :=
            exists_prefix_parseProgramUntilPanic cfg.sectionList (c.parseGroup cfg, [])
          exact .inr (.inr ⟨cfg, pre, result, rfl, isPrefix, run, same⟩)

/-- `Load` keeps every entry of the store, and changes only the keys the file it read
names. -/
theorem writes_load {fs : FileSystem} {c c' : Config} {cfg : IniFile}
    (read : c.readFile fs = .ok cfg) (loaded : c.load fs = .ok c') : Writes (Written cfg) c c' := by
  rw [load, read] at loaded
  exact writes_parse loaded

/-- A second load into the store of a first keeps the entry the second file drops,
the key the second file drops, and the group the second file no longer declares. -/
theorem load_keeps_previous_load :
    let first : FileSystem := ⟨fun _ => .ok (IniFile.ofList [("group:g", [("programs", "a")]),
      ("program:a", [("command", "/bin/a"), ("autorestart", "true")]),
      ("program:b", [("command", "/bin/b")])]), fun _ => none⟩
    let second : FileSystem :=
      ⟨fun _ => .ok (IniFile.ofList [("program:a", [("command", "/bin/a")])]), fun _ => none⟩
    let observe := fun c : Config => (c.entries.keys,
      (c.entries.lookup "a").map fun a => (a.group, a.keyValues.lookup "autorestart"),
      c.programGroup.processGroup.lookup "a")
    ((newConfig "/etc/supervisord.conf").load first >>= load second).map observe =
        .ok (["group:g", "a", "b", "DEFAULT"], some ("g", some "true"), some "g") ∧
      ((newConfig "/etc/supervisord.conf").load second).map observe =
        .ok (["a", "DEFAULT"], some ("a", none), some "a") :=
  ⟨rfl, rfl⟩

/-- An event listener section yields two event listener entries of one name, and a
program named like a daemon section shares that section's entry, which the last
pass turns into a non-program. -/
theorem load_duplicates_event_listener :
    let fs : FileSystem := ⟨fun _ => .ok (IniFile.ofList [("eventlistener:x", [("command", "/bin/l")]),
      ("program:supervisord", [("command", "/bin/p")]), ("supervisord", [("logfile", "/tmp/s.log")])]),
      fun _ => none⟩
    ((newConfig "/etc/supervisord.conf").load fs).map (fun c =>
        ((c.getEventListeners).map (·.name), (c.getEntries ConfigEntry.isProgram).map (·.name),
          (c.entries.lookup "supervisord").map fun entry => (entry.name, entry.keyValues.keys))) =
      .ok (["eventlistener:x", "eventlistener:x"], [],
        some ("supervisord", ["command", "numprocs", "process_name", "numprocs_start", "process_num",
          "logfile"])) :=
  rfl

/-- A relative directory part is dropped, and the base pattern matches names that
only contain a match. -/
theorem getIncludeFiles_drops_relative_directory :
    (newConfig "/etc/supervisord.conf").getIncludeFiles
        ⟨fun _ => .error "unused", fun dir =>
          if dir = "/etc" then some ["conf.d", "supervisord.conf"]
          else if dir = "/etc/conf.d" then some ["a.conf", "b.conf", "x.conf.bak"] else none⟩
        (IniFile.ofList [("include", [("files", "conf.d/*.conf /etc/conf.d/*.conf")])]) =
      ["/etc/supervisord.conf", "/etc/conf.d/a.conf", "/etc/conf.d/b.conf",
        "/etc/conf.d/x.conf.bak"] :=
  by decide

end Config

end Supervisord
